import DnsServer.Coms.Fetching

/-! A request for the hosts file whose sender delivers some bytes and closes: which of them the request ends on. -/
namespace DnsServer
open Process Program Memory

/-! The sender. -/

/-- One receive of at most `len` bytes: no bytes once the sender has closed. -/
def arrive (len : Nat) : List Bytes → Bytes × List Bytes
  | [] => ([], [])
  | [] :: segments => arrive len segments
  | (b :: bytes) :: segments =>
    ((b :: bytes).take len,
      if (b :: bytes).length ≤ len then segments else (b :: bytes).drop len :: segments)

/-- What is still to be delivered, how the sends to it end, and what uninitialised memory holds. -/
structure Sender where
  segments : List Bytes
  sends : Nat → Bool
  locals : (n : Nat) → { bytes : Bytes // bytes.length = n }

def senderWorld (s : Sender) : World
  | .garbage n => some (s.locals n)
  | _ => none

def senderNetwork : Network Sender
  | e, .connect _ => some (⟨0, .client⟩, e)
  | (m, s), .send _ _ => some (s.sends 0, m, { s with sends := fun i => s.sends (i + 1) })
  | (m, s), .recv _ len =>
    some (some (arrive len s.segments).1, m, { s with segments := (arrive len s.segments).2 })
  | e, .close _ => some ((), e)
  | _, _ => none

abbrev closing : Handler platform.interface (Mem × Sender) := system senderWorld senderNetwork

/-! The loop of one text. -/

/-- The buffer after receives of these pieces. -/
def overlay (stale : Bytes) (pieces : List Bytes) : Bytes :=
  pieces.foldl (fun buffer bytes => bytes ++ buffer.drop bytes.length) stale

/-- The byte that is tested after these pieces: the last one of a first piece, and from the second piece on
one that an earlier text has left. -/
def tested (stale : Bytes) (pieces : List Bytes) : Option UInt8 :=
  if pieces.length = 1 then pieces.flatten.getLast? else stale[pieces.flatten.length - 1]?

theorem overlay_append (stale : Bytes) (pieces : List Bytes) (bytes : Bytes) :
    overlay stale (pieces ++ [bytes]) = bytes ++ (overlay stale pieces).drop bytes.length := by
  simp [overlay]

theorem overlay_behind (stale : Bytes) (short : ∀ piece ∈ pieces, piece.length ≤ i) :
    (overlay stale pieces)[i]? = stale[i]? := by
  induction pieces generalizing stale with
  | nil => rfl
  | cons piece pieces ih =>
    obtain ⟨first, rest⟩ := List.forall_mem_cons.mp short
    change (overlay (piece ++ stale.drop piece.length) pieces)[i]? = stale[i]?
    rw [ih _ rest, List.getElem?_append_right first, List.getElem?_drop, Nat.add_sub_cancel' first]

theorem full_append {done : List Bytes} (full : ∀ piece ∈ done, piece ≠ []) (nonempty : bytes ≠ []) :
    ∀ piece ∈ done ++ [bytes], piece ≠ [] :=
  List.forall_mem_append.mpr ⟨full, List.forall_mem_singleton.mpr nonempty⟩

theorem length_le_flatten {pieces : List Bytes} (full : ∀ piece ∈ pieces, piece ≠ []) :
    pieces.length ≤ pieces.flatten.length := by
  induction pieces with
  | nil => exact Nat.le_refl 0
  | cons piece pieces ih =>
    obtain ⟨first, rest⟩ := List.forall_mem_cons.mp full
    have counted := List.length_pos_of_ne_nil first
    have others := ih rest
    simp only [List.length_cons, List.flatten_cons, List.length_append]
    omega

/-- From the second piece on the place that is tested lies behind each of them. -/
theorem ahead_of_pieces {pieces : List Bytes} (full : ∀ piece ∈ pieces, piece ≠ []) (two : 1 < pieces.length) :
    ∀ piece ∈ pieces, piece.length < pieces.flatten.length := by
  intro piece member
  obtain ⟨before, after, rfl⟩ := List.append_of_mem member
  obtain ⟨full₁, full₂⟩ := List.forall_mem_append.mp full
  have first := length_le_flatten full₁
  have second := length_le_flatten (List.forall_mem_cons.mp full₂).2
  simp only [List.length_append, List.length_cons, List.flatten_append, List.flatten_cons] at two ⊢
  omega

theorem overlay_tested (stale : Bytes) (full : ∀ piece ∈ pieces, piece ≠ []) (received : pieces ≠ []) :
    (overlay stale pieces)[pieces.flatten.length - 1]? = tested stale pieces := by
  rw [tested]
  split
  · next single =>
    obtain ⟨piece, rfl⟩ := List.length_eq_one_iff.mp single
    have counted := List.length_pos_of_ne_nil (full piece List.mem_cons_self)
    change (piece ++ stale.drop piece.length)[_]? = _
    rw [List.flatten_singleton, List.getLast?_eq_getElem?, List.getElem?_append_left (by omega)]
  · next several =>
    have counted := List.length_pos_of_ne_nil received
    apply overlay_behind
    intro piece member
    have ahead := ahead_of_pieces full (by omega) piece member
    omega

/-- A turn of the loop tests the byte so described. -/
theorem chunkAfter_tested (stale : Bytes) (full : ∀ piece ∈ done ++ [bytes], piece ≠ []) :
    chunkAfter (overlay stale done) done.flatten.length bytes = (tested stale (done ++ [bytes])).map fun last =>
      if last = 0 then .inr (overlay stale (done ++ [bytes]))
      else .inl (overlay stale (done ++ [bytes]), (done ++ [bytes]).flatten.length) := by
  have added := List.length_pos_of_ne_nil (full bytes (by simp))
  have total : (done ++ [bytes]).flatten.length = done.flatten.length + bytes.length := by simp
  rw [chunkAfter, ← overlay_append, ← total, if_neg (by omega), overlay_tested stale full (by simp)]

/-- A receive after the end changes nothing, and where nothing has come tests the byte before the buffer. -/
theorem chunkAfter_nothing (stale : Bytes) (full : ∀ piece ∈ done, piece ≠ [])
    (going : done ≠ [] → ∃ b, tested stale done = some b ∧ b ≠ 0) :
    chunkAfter (overlay stale done) done.flatten.length [] =
      if done = [] then none else some (.inl (overlay stale done, done.flatten.length)) := by
  by_cases received : done = []
  · rw [if_pos received, received]
    rfl
  · obtain ⟨b, here, more⟩ := going received
    have counted := length_le_flatten full
    have some := List.length_pos_of_ne_nil received
    have looked := overlay_tested stale full received
    rw [here] at looked
    rw [if_neg received]
    change (if done.flatten.length = 0 then none
      else (overlay stale done)[done.flatten.length - 1]?).map _ = _
    rw [if_neg (by omega), looked, Option.map_some, if_neg more]
    rfl

/-- The pieces that the loop receives after `done` until it ends. -/
inductive TextEnds (stale : Bytes) : List Bytes → List Bytes → Prop where
  | last : bytes ≠ [] → tested stale (done ++ [bytes]) = some 0 → TextEnds stale done [bytes]
  | more : bytes ≠ [] → tested stale (done ++ [bytes]) = some b → b ≠ 0 → TextEnds stale (done ++ [bytes]) pieces →
      TextEnds stale done (bytes :: pieces)

theorem arrive_nothing (none : (arrive textSize segments).1 = []) : (arrive textSize segments).2 = [] := by
  induction segments with
  | nil => rfl
  | cons segment segments ih =>
    cases segment with
    | nil => exact ih none
    | cons b bytes => cases none

/-- So many receives of text. -/
def arrivals : Nat → List Bytes → List Bytes × List Bytes
  | 0, segments => ([], segments)
  | n + 1, segments =>
    let (bytes, rest) := arrive textSize segments
    let (pieces, left) := arrivals n rest
    (bytes :: pieces, left)

/-- The loop ends with `pieces` before the sender closes, with `left` to come. -/
def Delivers (stale : Bytes) (done segments pieces left : List Bytes) : Prop :=
  TextEnds stale done pieces ∧ arrivals pieces.length segments = (pieces, left)

/-- Once the sender has closed no loop ends. -/
theorem not_delivers_nothing : ¬ Delivers stale done [] pieces left := by
  rintro ⟨ends, came⟩
  cases ends with
  | last nonempty _ =>
    cases came
    exact nonempty rfl
  | more nonempty _ _ _ =>
    obtain ⟨same, _⟩ := Prod.mk.inj came
    exact nonempty (List.cons.inj same).1.symm

/-- The loops of so many texts end before the sender closes, and each of them holds an entry. -/
inductive Supplied : Nat → Bytes → List Bytes → List Bytes → Prop where
  | zero : Supplied 0 stale segments segments
  | succ : Delivers stale [] segments pieces rest → (decodeEntry (overlay stale pieces)).isSome →
      Supplied n (endDomain (overlay stale pieces)) rest left → Supplied (n + 1) stale segments left

section
variable {m m₁ : Mem} {s s₁ : Sender} {tr : List (Event platform.interface)}

theorem textFrom_answered (traced : Traces (textFrom socket buffer count) tr result)
    (answered : Answered closing (m, s) tr e) :
    ∃ rest, tr = ⟨.recv socket textSize, some (arrive textSize s.segments).1⟩ :: rest ∧
      Traces (afterChunk socket (chunkAfter buffer count (arrive textSize s.segments).1)) rest result ∧
      Answered closing (m, { s with segments := (arrive textSize s.segments).2 }) rest e := by
  rcases textFrom_traces.mp traced with ⟨_, rfl⟩ | ⟨bytes, rest, rfl, next⟩
  · cases answered with
    | cons asked _ => cases asked
  · cases answered with
    | cons asked answered =>
      cases asked
      exact ⟨rest, rfl, next, answered⟩

/-- A loop that ends has been delivered the pieces that it ends with. -/
theorem textFrom_delivers (full : ∀ piece ∈ done, piece ≠ [])
    (going : done ≠ [] → ∃ b, tested stale done = some b ∧ b ≠ 0)
    (traced : Traces (textFrom socket (overlay stale done) done.flatten.length) tr result)
    (answered : Answered closing (m, s) tr (m₁, s₁)) :
    ∃ pieces left, Delivers stale done s.segments pieces left ∧
      result = some (overlay stale (done ++ pieces)) ∧ m₁ = m ∧ s₁ = { s with segments := left } := by
  induction tr generalizing done s with
  | nil =>
    obtain ⟨_, impossible, _⟩ := textFrom_answered traced answered
    cases impossible
  | cons event tr ih =>
    obtain ⟨rest, same, next, answered⟩ := textFrom_answered traced answered
    cases same
    generalize arrived : arrive textSize s.segments = arrival at next answered
    obtain ⟨bytes, segments⟩ := arrival
    by_cases empty : bytes = []
    · subst empty
      have ended : segments = [] := by
        have none := arrive_nothing (congrArg Prod.fst arrived)
        rwa [arrived] at none
      subst ended
      rw [chunkAfter_nothing stale full going] at next
      split at next
      · exact absurd next not_traces_fault
      · obtain ⟨_, _, delivered, _⟩ := ih full going next answered
        exact absurd delivered not_delivers_nothing
    · have full₁ := full_append full empty
      rw [chunkAfter_tested stale full₁] at next
      cases here : tested stale (done ++ [bytes]) with
      | none =>
        rw [here] at next
        exact absurd next not_traces_fault
      | some last =>
        rw [here, Option.map_some] at next
        by_cases zero : last = 0
        · subst zero
          obtain ⟨rfl, rfl⟩ := traces_ret_iff.mp next
          cases answered
          refine ⟨[bytes], segments, ⟨.last empty here, ?_⟩, rfl, rfl, rfl⟩
          simp [arrivals, arrived]
        · rw [if_neg zero] at next
          obtain ⟨pieces, left, ⟨ends, came⟩, rfl, rfl, rfl⟩ :=
            ih full₁ (fun _ => ⟨last, here, zero⟩) next answered
          refine ⟨bytes :: pieces, left, ⟨.more empty here zero ends, ?_⟩, ?_, rfl, rfl⟩
          · simp [arrivals, arrived, came]
          · rw [List.append_assoc, List.singleton_append]

theorem textFrom_runs
    (next : Runs closing (afterChunk socket (chunkAfter buffer count (arrive textSize s.segments).1))
      (m, { s with segments := (arrive textSize s.segments).2 }) result e) :
    Runs closing (textFrom socket buffer count) (m, s) result e := by
  obtain ⟨k, turn, _, going⟩ := textFrom_turn socket buffer count
  refine .loop ?_
  rw [turn]
  refine .reply (some (arrive textSize s.segments).1) _ rfl ?_
  rw [going]
  exact next

theorem textFrom_ends (full : ∀ piece ∈ done, piece ≠ []) (ends : TextEnds stale done pieces)
    (came : arrivals pieces.length s.segments = (pieces, left)) :
    Runs closing (textFrom socket (overlay stale done) done.flatten.length) (m, s)
      (some (overlay stale (done ++ pieces))) (m, { s with segments := left }) := by
  induction ends generalizing s with
  | @last bytes done nonempty here =>
    obtain ⟨same, rfl⟩ := Prod.mk.inj came
    have arrived := (List.cons.inj same).1
    apply textFrom_runs
    rw [arrived, chunkAfter_tested stale (full_append full nonempty), here]
    exact .ret
  | @more bytes done last pieces nonempty here going _ ih =>
    obtain ⟨same, rfl⟩ := Prod.mk.inj came
    obtain ⟨arrived, others⟩ := List.cons.inj same
    have full₁ := full_append full nonempty
    apply textFrom_runs
    rw [arrived, chunkAfter_tested stale full₁, here, Option.map_some, if_neg going]
    let s₁ : Sender := { s with segments := (arrive textSize s.segments).2 }
    have came₁ : arrivals pieces.length s₁.segments = (pieces, (arrivals pieces.length s₁.segments).2) :=
      Prod.ext others rfl
    have rest := ih full₁ came₁
    rw [List.append_assoc, List.singleton_append] at rest
    exact rest

/-- A text is received exactly if the pieces that its loop ends with are delivered. -/
theorem recieveText_runs_iff : Runs closing (recieveText socket false buffer) (m, s) result (m₁, s₁) ↔
    ∃ pieces left, Delivers buffer [] s.segments pieces left ∧ result = some (overlay buffer pieces) ∧
      m₁ = m ∧ s₁ = { s with segments := left } := by
  have none : ∀ piece ∈ ([] : List Bytes), piece ≠ [] := by simp
  constructor
  · intro ran
    obtain ⟨tr, traced, answered⟩ := runs_iff_traces.mp ran
    exact textFrom_delivers none (fun some => absurd rfl some) traced answered
  · rintro ⟨pieces, left, ⟨ends, came⟩, rfl, rfl, rfl⟩
    exact textFrom_ends none ends came

/-- The loop over the entries ends with all of them, or before one whose acknowledgement fails. -/
theorem recieveEntries_supplied (ran : Runs closing (recieveEntries socket coms n buffer) (m, s) code (m₁, s₁)) :
    (code = 0 ∧ Supplied n buffer s.segments s₁.segments ∧ ∀ i, s₁.sends i = s.sends (i + n)) ∨
      ∃ i left, i < n ∧ Supplied i buffer s.segments left ∧ s.sends i = false := by
  induction n generalizing buffer m s with
  | zero =>
    obtain ⟨rfl, same⟩ := runs_ret_iff.mp ran
    cases same
    exact .inl ⟨rfl, .zero, fun _ => rfl⟩
  | succ n ih =>
    simp only [recieveEntries, send, act, close, request, bind_eq, pure_eq, call_bind, ret_bind] at ran
    obtain ⟨sent, _, asked, continued⟩ := runs_call_iff.mp ran
    obtain ⟨rfl, rfl⟩ := Prod.mk.inj (Option.some.inj asked)
    cases first : s.sends 0 with
    | false => exact .inr ⟨0, s.segments, Nat.succ_pos n, .zero, first⟩
    | true =>
      rw [first] at continued
      obtain ⟨_, ⟨m₂, s₂⟩, text, continued⟩ := Runs.split continued
      obtain ⟨pieces, rest, delivered, rfl, rfl, rfl⟩ := recieveText_runs_iff.mp text
      simp only at continued
      split at continued
      · obtain ⟨_, _, impossible, _⟩ := runs_call_iff.mp continued
        cases impossible
      · next domain ip decoded =>
        obtain ⟨_, _, asked, following⟩ := runs_call_iff.mp continued
        obtain ⟨_, rfl⟩ := Prod.mk.inj (Option.some.inj asked)
        have holds : (decodeEntry (overlay buffer pieces)).isSome := by rw [decoded]; rfl
        rcases ih following with ⟨rfl, supplied, later⟩ | ⟨i, left, before, supplied, failed⟩
        · exact .inl ⟨rfl, .succ delivered holds supplied, fun i => later i⟩
        · exact .inr ⟨i + 1, left, by omega, .succ delivered holds supplied, failed⟩

/-- So long as the entries are supplied it stores them, until an acknowledgement fails. -/
theorem recieveEntries_ends (m : Mem) (supplied : Supplied i buffer s.segments left) (within : i ≤ n)
    (last : i = n ∨ s.sends i = false) :
    ∃ code m₁ s₁, Runs closing (recieveEntries socket coms n buffer) (m, s) code (m₁, s₁) ∧
      (code ≠ 0 ∨ i = n ∧ code = 0 ∧ s₁ = { s with segments := left, sends := fun k => s.sends (k + n) }) := by
  induction n generalizing i buffer m s with
  | zero =>
    obtain rfl := Nat.le_zero.mp within
    cases supplied
    exact ⟨0, m, s, .ret, .inr ⟨rfl, rfl, rfl⟩⟩
  | succ n ih =>
    let s₁ : Sender := { s with sends := fun k => s.sends (k + 1) }
    simp only [recieveEntries, send, act, close, request, bind_eq, pure_eq, call_bind, ret_bind]
    cases first : s.sends 0 with
    | false =>
      refine ⟨2, m, s₁, .reply false (m, s₁) ?_ .ret, .inl (by decide)⟩
      exact congrArg (fun sent => some (sent, (m, s₁))) first
    | true =>
      cases supplied with
      | zero =>
        rcases last with impossible | failed
        · omega
        · rw [first] at failed
          cases failed
      | @succ _ _ pieces rest j _ delivered holds supplied =>
        obtain ⟨⟨domain, ip⟩, decoded⟩ := Option.isSome_iff_exists.mp holds
        let m₁ := m.setComs coms { m.coms coms with ipHash := (m.coms coms).ipHash.insert domain ip }
        let s₂ : Sender := { s₁ with segments := rest }
        have supplied₂ : Supplied j (endDomain (overlay buffer pieces)) s₂.segments left := supplied
        have more : j = n ∨ s₂.sends j = false := last.imp Nat.succ.inj id
        obtain ⟨code, m₂, s₃, ran, ends⟩ :=
          ih m₁ supplied₂ (Nat.le_of_succ_le_succ within) more
        have text : Runs closing (recieveText socket false buffer) (m, s₁) (some (overlay buffer pieces)) (m, s₂) :=
          recieveText_runs_iff.mpr ⟨pieces, rest, delivered, rfl, rfl, rfl⟩
        refine ⟨code, m₂, s₃, .reply true (m, s₁) ?_ (text.bind ?_), ?_⟩
        · exact congrArg (fun sent => some (sent, (m, s₁))) first
        · simp only [decoded]
          exact .reply () (m₁, s₂) rfl ran
        · rcases ends with failed | ⟨rfl, rfl, rfl⟩
          · exact .inl failed
          · exact .inr ⟨rfl, rfl, rfl⟩

/-- What a receive of one byte finds whose result is not looked at. -/
def Sender.byte (s : Sender) : UInt8 := (arrive 1 s.segments).1.headD ((s.locals 1).val.headD 0)

theorem recvUnchecked_closing : Runs closing (recvUnchecked socket) (m, s) s.byte
    (m, { s with segments := (arrive 1 s.segments).2 }) := by
  simp only [recvUnchecked, garbageByte, recv, act, request, bind_eq, pure_eq, call_bind, ret_bind]
  refine .reply (some (arrive 1 s.segments).1) (m, { s with segments := (arrive 1 s.segments).2 }) rfl ?_
  rw [Sender.byte]
  cases (arrive 1 s.segments).1 with
  | nil => exact .reply (s.locals 1) _ rfl .ret
  | cons b bytes => exact .ret

/-- The number of entries, each of them with its terminator, and the version. -/
def TransferComplete (bytes : Bytes) : Prop :=
  ∃ announced, ∃ texts : List Bytes, ∃ version more,
    bytes = announced :: (texts.flatMap (· ++ [0]) ++ version :: more) ∧
    texts.length = announced.toNat ∧ ∀ text ∈ texts, (0 : UInt8) ∉ text

/-- The request returns, and with an error unless everything has arrived. -/
def Finishes (coms portNum : UInt16) (m : Mem) (s : Sender) : Prop :=
  ∃ code e, Runs closing (requestHosts coms portNum) (m, s) code e ∧
    (code = 0 → TransferComplete s.segments.flatten)

/-- A send fails before a text whose loop goes on for good, or there is no such text among the announced ones
and everything is delivered. -/
def Sender.Suffices (s : Sender) : Prop :=
  s.sends 0 = false ∨ ∃ i left, i ≤ s.byte.toNat ∧
    Supplied i (s.locals textSize).val (arrive 1 s.segments).2 left ∧
    (s.sends (i + 1) = false ∨ i = s.byte.toNat ∧ TransferComplete s.segments.flatten)

theorem suffices_of_finishes (finishes : Finishes coms portNum m s) : s.Suffices := by
  obtain ⟨code, e, ran, complete⟩ := finishes
  simp only [requestHosts, connectToTcp, send, act, close, request, bind_eq, pure_eq, call_bind, ret_bind] at ran
  obtain ⟨_, _, asked, ran⟩ := runs_call_iff.mp ran
  cases asked
  obtain ⟨socket, _, asked, ran⟩ := runs_call_iff.mp ran
  cases asked
  obtain ⟨sent, _, asked, ran⟩ := runs_call_iff.mp ran
  obtain ⟨rfl, rfl⟩ := Prod.mk.inj (Option.some.inj asked)
  cases first : s.sends 0 with
  | false => exact .inl first
  | true =>
    rw [first] at ran
    obtain ⟨announced, _, counted, ran⟩ := Runs.split ran
    obtain ⟨rfl, rfl⟩ := recvUnchecked_closing.iff.mp counted
    obtain ⟨buffer, _, asked, ran⟩ := runs_call_iff.mp ran
    cases asked
    obtain ⟨recieved, ⟨m₁, s₁⟩, entries, ran⟩ := Runs.split ran
    right
    rcases recieveEntries_supplied entries with ⟨rfl, supplied, later⟩ | ⟨i, left, before, supplied, failed⟩
    · refine ⟨_, _, Nat.le_refl _, supplied, ?_⟩
      rw [if_neg (by decide)] at ran
      obtain ⟨sent, _, asked, ran⟩ := runs_call_iff.mp ran
      obtain ⟨rfl, rfl⟩ := Prod.mk.inj (Option.some.inj asked)
      have last := later 0
      rw [Nat.zero_add] at last
      cases acked : s₁.sends 0 with
      | false => exact .inl (last.symm.trans acked)
      | true =>
        rw [acked] at ran
        obtain ⟨_, _, _, ran⟩ := Runs.split ran
        obtain ⟨_, _, _, ran⟩ := runs_call_iff.mp ran
        obtain ⟨_, _, _, ran⟩ := runs_call_iff.mp ran
        exact .inr ⟨rfl, complete (runs_ret_iff.mp ran).1⟩
    · exact ⟨i, left, Nat.le_of_lt before, supplied, .inl failed⟩

/-- What follows the loop over the entries. -/
def afterEntries (socket : Socket) (coms : UInt16) (recieved : UInt8) : Proc UInt8 := do
  if recieved ≠ 0 then return recieved
  if !(← send socket [1]) then return 4
  let ver ← recvUnchecked socket
  act (.setVersionNum coms ver)
  close socket
  return 0

theorem requestHosts_after (first : s.sends 0 = true)
    (entries : Runs closing (recieveEntries ⟨0, .client⟩ coms s.byte.toNat (s.locals textSize).val)
      (m.setComs coms { m.coms coms with ipHash := ∅ },
        { s with segments := (arrive 1 s.segments).2, sends := fun i => s.sends (i + 1) }) recieved (m₁, s₁))
    (ends : Runs closing (afterEntries ⟨0, .client⟩ coms recieved) (m₁, s₁) code e) :
    Runs closing (requestHosts coms portNum) (m, s) code e := by
  let m₀ := m.setComs coms { m.coms coms with ipHash := ∅ }
  let s₀ : Sender := { s with sends := fun i => s.sends (i + 1) }
  simp only [requestHosts, connectToTcp, send, act, request, bind_eq, pure_eq, call_bind, ret_bind]
  refine .reply () (m₀, s) rfl (.reply ⟨0, .client⟩ (m₀, s) rfl (.reply true (m₀, s₀) ?_ ?_))
  · exact congrArg (fun sent => some (sent, (m₀, s₀))) first
  · have counted : Runs closing (recvUnchecked ⟨0, .client⟩) (m₀, s₀) s.byte _ := recvUnchecked_closing
    exact counted.bind (.reply (s.locals textSize) _ rfl (entries.bind ends))

theorem finishes_of_suffices (enough : s.Suffices) : Finishes coms portNum m s := by
  cases first : s.sends 0 with
  | false =>
    let m₀ := m.setComs coms { m.coms coms with ipHash := ∅ }
    let s₀ : Sender := { s with sends := fun i => s.sends (i + 1) }
    refine ⟨1, (m₀, s₀), .reply () (m₀, s) rfl (.reply ⟨0, .client⟩ (m₀, s) rfl (.reply false (m₀, s₀) ?_ .ret)), ?_⟩
    · exact congrArg (fun sent => some (sent, (m₀, s₀))) first
    · exact fun impossible => absurd impossible (by decide)
  | true =>
    rcases enough with failed | ⟨i, left, within, supplied, last⟩
    · rw [first] at failed
      cases failed
    · let s₂ : Sender := ⟨(arrive 1 s.segments).2, fun i => s.sends (i + 1), s.locals⟩
      have supplied₂ : Supplied i (s.locals textSize).val s₂.segments left := supplied
      have stops : i = s.byte.toNat ∨ s₂.sends i = false := last.symm.imp And.left id
      obtain ⟨recieved, m₁, s₁, entries, ends⟩ :=
        recieveEntries_ends (m.setComs coms { m.coms coms with ipHash := ∅ }) supplied₂ within stops
      rcases ends with failed | ⟨all, rfl, rfl⟩
      · refine ⟨recieved, (m₁, s₁), requestHosts_after first entries ?_, fun none => absurd none failed⟩
        rw [afterEntries, if_pos failed]
        exact .ret
      · let s₃ : Sender := { s₂ with segments := left, sends := fun k => s₂.sends (k + s.byte.toNat) }
        let s₄ : Sender := { s₃ with sends := fun k => s₃.sends (k + 1) }
        have acked : s₃.sends 0 = s.sends (i + 1) := by
          rw [all]
          exact congrArg (fun k => s.sends (k + 1)) (Nat.zero_add _)
        cases ack : s.sends (i + 1) with
        | false =>
          refine ⟨4, (m₁, s₄), requestHosts_after first entries (.reply false (m₁, s₄) ?_ .ret), ?_⟩
          · exact congrArg (fun sent => some (sent, (m₁, s₄))) (acked.trans ack)
          · exact fun impossible => absurd impossible (by decide)
        | true =>
          rcases last with failed | ⟨_, complete⟩
          · rw [ack] at failed
            cases failed
          · have versioned : Runs closing (recvUnchecked ⟨0, .client⟩) (m₁, s₄) s₄.byte _ := recvUnchecked_closing
            refine ⟨0, _, requestHosts_after first entries (.reply true (m₁, s₄) ?_
              (versioned.bind (.reply () _ rfl (.reply () _ rfl .ret)))), fun _ => complete⟩
            exact congrArg (fun sent => some (sent, (m₁, s₄))) (acked.trans ack)

/-- A request whose sender goes away finishes as it should exactly when no text among the announced ones goes on
for good before a send fails, and what arrives is everything or a send fails. -/
theorem request_finishes_iff (coms portNum : UInt16) (m : Mem) (s : Sender) :
    Finishes coms portNum m s ↔ s.Suffices :=
  ⟨suffices_of_finishes, finishes_of_suffices⟩

end

/-! A transfer that arrives text by text. -/

theorem arrive_whole (nonempty : text ≠ []) (fits : text.length ≤ len) (rest : List Bytes) :
    arrive len (text :: rest) = (text, rest) := by
  cases text with
  | nil => exact absurd rfl nonempty
  | cons b bytes => rw [arrive, if_pos fits, List.take_of_length_le fits]

theorem supplied_texts (neat : Neat entries) (stale : Bytes) (rest : List Bytes) :
    Supplied entries.length stale (entries.map (fun entry => entryText entry.1 entry.2) ++ rest) rest := by
  induction entries generalizing stale with
  | nil => exact .zero
  | cons entry entries ih =>
    obtain ⟨domain, ip⟩ := entry
    have nonempty : entryText domain ip ≠ [] := by simp [entryText]
    have came := arrive_whole nonempty (neat.fits _ List.mem_cons_self)
      (entries.map (fun entry => entryText entry.1 entry.2) ++ rest)
    have last : tested stale ([] ++ [entryText domain ip]) = some 0 := by
      rw [entryText_terminated, List.nil_append, tested, if_pos List.length_singleton, List.flatten_singleton,
        List.getLast?_concat]
    refine .succ ⟨.last nonempty last, ?_⟩ ?_ (ih (neat.subset (List.subset_cons_self _ _)) _)
    · simp only [List.map_cons, List.cons_append, List.length_singleton, arrivals, came]
    · change (decodeEntry (entryText domain ip ++ stale.drop _)).isSome
      rw [decodeEntry_text (neat.domain _ List.mem_cons_self) (neat.ip _ List.mem_cons_self)]
      rfl

/-- A whole transfer that arrives text by text is received to its end. -/
theorem text_by_text_suffices {s : Sender} (sendable : Sendable entries)
    (arrives : s.segments = [UInt8.ofNat entries.length] ::
      (entries.map (fun entry => entryText entry.1 entry.2) ++ [[version]])) : s.Suffices := by
  have counted : (UInt8.ofNat entries.length).toNat = entries.length := by
    rw [UInt8.toNat_ofNat']
    exact Nat.mod_eq_of_lt (Nat.lt_succ_of_le sendable.few)
  have nonempty : [UInt8.ofNat entries.length] ≠ [] := List.cons_ne_nil _ _
  have came := arrive_whole nonempty (Nat.le_refl 1)
    (entries.map (fun entry => entryText entry.1 entry.2) ++ [[version]])
  have byte : s.byte.toNat = entries.length := by
    rw [Sender.byte, arrives, came]
    exact counted
  refine .inr ⟨entries.length, [[version]], Nat.le_of_eq byte.symm, ?_, .inr ⟨byte.symm, ?_⟩⟩
  · rw [arrives, came]
    exact supplied_texts sendable.toNeat _ _
  · refine ⟨UInt8.ofNat entries.length, entries.map fun entry => entry.1 ++ space :: entry.2, version, [],
      ?_, ?_, ?_⟩
    · rw [arrives]
      simp [List.flatMap_def, entryText, Function.comp_def]
    · rw [List.length_map, counted]
    · intro text member
      obtain ⟨entry, among, rfl⟩ := List.mem_map.mp member
      have domain := (sendable.domain entry among).noZero
      have ip := sendable.ip entry among
      simp [domain, ip, space]

/-- One entry is announced, of which two bytes are delivered. -/
def halfEntry : Sender := ⟨[[1], [97, 98]], fun _ => true, zeros⟩

/-- The request goes on for good. -/
theorem half_entry_never_ends : ¬ Finishes 1 2 (startMem .roundRobin) halfEntry := by
  intro finishes
  rcases suffices_of_finishes finishes with failed | ⟨i, left, _, supplied, failed | ⟨rfl, _⟩⟩
  · cases failed
  · cases failed
  · cases supplied with
    | succ delivered _ _ =>
      obtain ⟨ends, came⟩ := delivered
      cases ends with
      | last _ here =>
        cases came
        revert here
        decide
      | more _ _ _ ends =>
        obtain ⟨same, _⟩ := Prod.mk.inj came
        exact not_delivers_nothing ⟨ends, Prod.ext (List.cons.inj same).2 rfl⟩

end DnsServer
