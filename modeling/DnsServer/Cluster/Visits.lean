import DnsServer.Cluster.Joining
import DnsServer.Cluster.Recovery
import DnsServer.Process.Rely

/-! The thread of a server that answers the others, one connection after another. -/
namespace DnsServer
open Process Program Relation Replication

/-- What a client does on its connection. -/
inductive Visit where
  /-- It requests the hosts file, and the receive after so many acknowledgements fails. -/
  | fetch (acks : Nat)
  /-- It requests the hosts file and closes its connection after so many acknowledgements. So many sends to it
  succeed; the next one ends the process, by `SIGPIPE`. -/
  | closed (acks sends : Nat)
  | update (u : Update)
  /-- It is gone before it sends its update: the receive fails, or the stream has ended. -/
  | gone (failed : Bool)
  /-- It requests something else. -/
  | other (code : UInt8) (unknown : code ≠ 1 ∧ code ≠ 2)

/-- A client that has closed its connection is received nothing from, without an error. -/
def closedAcks (items acks : Nat) : List Bytes :=
  List.replicate (min acks items) [1] ++ List.replicate (items - acks) []

theorem length_closedAcks (items acks : Nat) : (closedAcks items acks).length = items := by
  simp only [closedAcks, List.length_append, List.length_replicate]
  omega

theorem acks_small (n : Nat) : ∀ ack ∈ List.replicate n ([1] : Bytes), ack.length ≤ 1 := by
  intro ack member
  rw [List.eq_of_mem_replicate member, List.length_singleton]

theorem closedAcks_small (items acks : Nat) : ∀ ack ∈ closedAcks items acks, ack.length ≤ 1 := by
  intro ack member
  rcases List.mem_append.mp member with sent | ended
  · exact acks_small _ ack sent
  · rw [List.eq_of_mem_replicate ended]
    exact Nat.zero_le 1

/-- How the receives of the server at `c` end. -/
def Visit.incoming (c : Coms) : Visit → List (Option Bytes)
  | .fetch acks =>
    some [1] :: if acks ≤ c.ipHash.entries.length then List.replicate acks (some [1]) ++ [none]
      else List.replicate (c.ipHash.entries.length + 1) (some [1])
  | .closed acks _ => some [1] :: (closedAcks (c.ipHash.entries.length + 1) acks).map some
  | .update u => [some [2], some u.text]
  | .gone failed => [some [2], if failed then none else some []]
  | .other code _ => [some [code]]

def Visit.effect (c : Coms) : Visit → Coms
  | .update u => c.actuallyUpdate u
  | _ => c

/-- What the client is sent, if the process lives. -/
def Visit.answer (c : Coms) : Visit → List Bytes
  | .fetch acks => (fileItems c).take (acks + 1)
  | .closed _ _ => fileItems c
  | .other _ _ => []
  | _ => [[c.versionNum]]

/-- How many sends to the client succeed. -/
def Visit.sends : Visit → Option Nat
  | .closed _ sends => some sends
  | _ => none

/-- A connection on which only so many sends succeed. -/
def limitedNetwork (limit : Option Nat) : Network Script
  | (m, s), .send socket bytes =>
    if ∀ sends ∈ limit, s.sent.length < sends then scriptNetwork (m, s) (.send socket bytes) else none
  | e, op => scriptNetwork e op

abbrev limited (limit : Option Nat) : Handler platform.interface (Mem × Script) :=
  system scriptWorld (limitedNetwork limit)

/-- `script` is the connection that was accepted last, `limit` how many sends on it succeed, and `answers` what was
sent on those before it. -/
structure Visiting where
  waiting : List Visit
  script : Option Script
  limit : Option Nat
  answers : List (List Bytes)
  locals : (n : Nat) → { bytes : Bytes // bytes.length = n }

def Visiting.sent (n : Visiting) : List (List Bytes) := n.answers ++ (n.script.map (·.sent)).toList

def visitingWorld (n : Visiting) : World := (n.script.map scriptWorld).getD fun _ => none

def visitingNetwork : Network Visiting
  | (m, n), .accept p =>
    match n.waiting with
    | [] => none
    | visit :: waiting =>
      some (⟨0, .server⟩, m, ⟨waiting, some ⟨visit.incoming (m.coms p), [], n.locals⟩, visit.sends, n.sent, n.locals⟩)
  | (m, n), op =>
    match n.script with
    | none => none
    | some s => (limitedNetwork n.limit (m, s) op).map fun (reply, m, s) => (reply, m, { n with script := some s })

abbrev visiting : Handler platform.interface (Mem × Visiting) := system visitingWorld visitingNetwork

/-- The requests on a connection that is accepted. -/
def InVisit : platform.Call → Prop
  | .accept _ => False
  | _ => True

@[simp] theorem length_fileItems (c : Coms) : (fileItems c).length = c.ipHash.entries.length + 2 := by
  simp only [fileItems, List.length_cons, List.length_append, List.length_map, List.length_nil]

theorem sendEntireFile_inVisit (socket : Socket) (p : UInt16) : (sendEntireFile socket p).Asks InVisit := by
  have entries : (sendEntries socket p).Asks InVisit := by
    refine ⟨fun i => ?_, fun _ => trivial⟩
    simp only [sendEntry, act, recv, send, request, bind_eq, pure_eq, call_bind, ret_bind]
    refine .call trivial fun hash => ?_
    split
    · trivial
    refine .call trivial fun got => ?_
    split
    · trivial
    refine .call trivial fun sent => ?_
    split
    · trivial
    · trivial
  simp only [sendEntireFile, act, recv, send, request, bind_eq, pure_eq, call_bind, ret_bind]
  refine .call trivial fun hash => .call trivial fun sent => ?_
  split
  · trivial
  refine entries.bind fun sent => ?_
  split
  · trivial
  refine .call trivial fun got => ?_
  split
  · trivial
  refine .call trivial fun version => .call trivial fun sent => ?_
  split
  · trivial
  · trivial

theorem recieveUpdate_inVisit (p : UInt16) (socket : Socket) : (recieveUpdate p socket).Asks InVisit := by
  simp only [recieveUpdate, act, send, close, request, bind_eq, pure_eq, call_bind, ret_bind]
  refine .call trivial fun version => .call trivial fun sent => ?_
  split
  · trivial
  refine .call trivial fun buffer => (recieveText_asks InVisit trivial trivial true buffer.val).bind fun text => ?_
  split
  · exact .call trivial fun _ => trivial
  split
  · exact .call trivial fun r => r.elim
  · exact actuallyUpdate_asks InVisit (fun _ => trivial) ..

/-- The thread of a connection that is gone has sent the entries that were acknowledged. -/
theorem sendEntries_stops (socket : Socket) (p : UInt16) (m : Mem) (n i : Nat) (s : Script)
    (inside : i + n < (m.coms p).ipHash.entries.length)
    (arrives : s.incoming = List.replicate n (some [1]) ++ none :: rest) :
    Runs scripted (.loop i (sendEntry socket p) .ret) (m, s) 2
      (m, { s with
        incoming := rest
        sent := s.sent ++
          (((m.coms p).ipHash.entries.drop i).take n).map fun entry => entryText entry.1 entry.2 }) := by
  induction n generalizing i s with
  | zero =>
    refine .loop ?_
    simp only [unroll, sendEntry, act, recv, request, bind_eq, pure_eq, call_bind, ret_bind]
    refine .reply (m.coms p).ipHash (m, s) rfl ?_
    rw [List.getElem?_eq_getElem (by omega)]
    refine .reply none _ (scripted_recv m s socket arrives (by rintro _ ⟨⟩)) ?_
    simp only [List.take_zero, List.map_nil, List.append_nil]
    exact .ret
  | succ n ih =>
    refine .loop ?_
    simp only [unroll, sendEntry, act, recv, send, request, bind_eq, pure_eq, call_bind, ret_bind]
    refine .reply (m.coms p).ipHash (m, s) rfl ?_
    have here : i < (m.coms p).ipHash.entries.length := by omega
    rw [List.getElem?_eq_getElem here, List.drop_eq_getElem_cons here]
    let text := entryText (m.coms p).ipHash.entries[i].1 (m.coms p).ipHash.entries[i].2
    let s₁ : Script := { s with incoming := List.replicate n (some [1]) ++ none :: rest }
    let s₂ : Script := { s₁ with sent := s.sent ++ [text] }
    have acknowledged : scripted (m, s) (.recv socket 1) = some (some [1], m, s₁) :=
      scripted_recv m s socket arrives (by rintro _ ⟨⟩; simp)
    refine .reply (some [1]) (m, s₁) acknowledged (.reply true (m, s₂) rfl ?_)
    have more := ih (i + 1) s₂ (by omega) rfl
    simp only [s₂, s₁, List.append_assoc, List.singleton_append] at more
    rw [List.take_succ_cons, List.map_cons]
    exact more

/-- A client that is gone after some acknowledgements has been sent as many entries behind their number. -/
theorem sendEntireFile_stops (socket : Socket) (p : UInt16) (m : Mem) (s : Script)
    (few : acks ≤ (m.coms p).ipHash.entries.length)
    (arrives : s.incoming = List.replicate acks (some [1]) ++ [none]) :
    ∃ code, Runs scripted (sendEntireFile socket p) (m, s) code
      (m, { s with incoming := [], sent := s.sent ++ (fileItems (m.coms p)).take (acks + 1) }) := by
  let s₁ : Script := { s with sent := s.sent ++ [[UInt8.ofNat (m.coms p).ipHash.entries.length]] }
  simp only [sendEntireFile, act, send, recv, request, bind_eq, pure_eq, call_bind, ret_bind]
  rcases few.eq_or_lt with all_ | some_
  · rw [← List.map_replicate] at arrives
    have number : 0 + (List.replicate acks ([1] : Bytes)).length = (m.coms p).ipHash.entries.length := by
      rw [List.length_replicate, all_, Nat.zero_add]
    have sends := sendEntries_runs socket p m _ 0 s₁ [none] number (acks_small acks) arrives
    refine ⟨4, .reply (m.coms p).ipHash (m, s) rfl (.reply true (m, s₁) rfl (.bind sends ?_))⟩
    rw [if_neg (by simp)]
    refine .reply none _ (scripted_recv m _ socket rfl (by rintro _ ⟨⟩)) ?_
    have taken : (fileItems (m.coms p)).take (acks + 1) = [UInt8.ofNat (m.coms p).ipHash.entries.length] ::
        (m.coms p).ipHash.entries.map fun entry => entryText entry.1 entry.2 := by
      rw [fileItems, List.take_succ_cons, all_, List.take_left' (List.length_map _)]
    rw [taken]
    simp only [s₁, List.drop_zero, List.append_assoc, List.singleton_append]
    exact .ret
  · have sends := sendEntries_stops socket p m acks 0 s₁ (by omega) arrives
    refine ⟨2, .reply (m.coms p).ipHash (m, s) rfl (.reply true (m, s₁) rfl (.bind sends ?_))⟩
    rw [if_pos (by decide)]
    have taken : (fileItems (m.coms p)).take (acks + 1) = [UInt8.ofNat (m.coms p).ipHash.entries.length] ::
        ((m.coms p).ipHash.entries.take acks).map fun entry => entryText entry.1 entry.2 := by
      have within : acks ≤ ((m.coms p).ipHash.entries.map fun entry => entryText entry.1 entry.2).length := by
        rwa [List.length_map]
      rw [fileItems, List.take_succ_cons, List.take_append_of_le_length within, List.map_take]
    rw [taken]
    simp only [s₁, List.drop_zero, List.append_assoc, List.singleton_append]
    exact .ret

/-- `process_next_request` once a connection is accepted. -/
def answerRequest (p : UInt16) (socket : Socket) : Proc UInt8 := do
  let requestCode ← recvUnchecked socket
  if requestCode = 1 then let _ ← sendEntireFile socket p
  else if requestCode = 2 then let _ ← recieveUpdate p socket
  close socket
  return 0

theorem processNextRequest_eq (p : UInt16) :
    processNextRequest p = (@Program.call platform.interface _ (.accept p) fun socket => answerRequest p socket) := rfl

theorem answerRequest_inVisit (p : UInt16) (socket : Socket) : (answerRequest p socket).Asks InVisit := by
  have ends : (Bind.bind (close socket) fun _ => (Pure.pure 0 : Proc UInt8)).Asks InVisit := by
    exact .call trivial fun _ => trivial
  refine (recvUnchecked_asks InVisit trivial trivial).bind fun requestCode => ?_
  split
  · exact (sendEntireFile_inVisit socket p).bind fun _ => ends
  split
  · exact (recieveUpdate_inVisit p socket).bind fun _ => ends
  · exact ends

/-- As many items as it acknowledges, and one more, or the whole file. -/
theorem sendEntireFile_fetches (socket : Socket) (p : UInt16) (m : Mem) (s : Script) (acks : Nat)
    (arrives : s.incoming = (Visit.incoming (m.coms p) (.fetch acks)).tail) :
    ∃ code, Runs scripted (sendEntireFile socket p) (m, s) code
      (m, { s with incoming := [], sent := s.sent ++ (fileItems (m.coms p)).take (acks + 1) }) := by
  by_cases few : acks ≤ (m.coms p).ipHash.entries.length
  · exact sendEntireFile_stops socket p m s few (arrives.trans (if_pos few))
  · have whole : (fileItems (m.coms p)).length ≤ acks + 1 := by
      rw [length_fileItems]
      omega
    let acked : List Bytes := List.replicate ((m.coms p).ipHash.entries.length + 1) [1]
    have arrives₁ : s.incoming = acked.map some := by
      rw [List.map_replicate]
      exact arrives.trans (if_neg few)
    rw [List.take_of_length_le whole]
    exact ⟨0, sendEntireFile_runs socket p m s acked List.length_replicate (acks_small _) arrives₁⟩

/-- A client that requests the file is sent it. -/
theorem answerRequest_sends (p : UInt16) (m : Mem) (s : Script) (arrives : s.incoming = some [1] :: incoming)
    (sends : Runs scripted (sendEntireFile ⟨0, .server⟩ p) (m, { s with incoming }) code (m, s₁)) :
    Runs scripted (answerRequest p ⟨0, .server⟩) (m, s) 0 (m, s₁) := by
  simp only [answerRequest, recvUnchecked, recv, close, request, bind_eq, pure_eq, call_bind, ret_bind]
  refine .reply (some [1]) (m, { s with incoming }) (scripted_recv m s _ arrives (by rintro _ ⟨⟩; simp)) ?_
  simp only [ret_bind]
  rw [if_pos trivial]
  exact .bind sends (.reply () _ rfl .ret)

theorem answerRequest_runs (p : UInt16) (visit : Visit) (carried : ∀ u, visit = .update u → u.Carried) (m : Mem)
    (s : Script) (arrives : s.incoming = visit.incoming (m.coms p)) :
    Runs scripted (answerRequest p ⟨0, .server⟩) (m, s) 0
      (m.setComs p (visit.effect (m.coms p)),
        { s with incoming := [], sent := s.sent ++ visit.answer (m.coms p) }) := by
  cases visit with
  | fetch acks =>
    let s₁ : Script := { s with incoming := (Visit.incoming (m.coms p) (.fetch acks)).tail }
    obtain ⟨code, sends⟩ := sendEntireFile_fetches ⟨0, .server⟩ p m s₁ acks rfl
    have same : m.setComs p (Visit.effect (m.coms p) (.fetch acks)) = m := setComs_self m p
    rw [same]
    exact answerRequest_sends p m s arrives sends
  | closed acks sends =>
    let items := (m.coms p).ipHash.entries.length + 1
    let s₁ : Script := { s with incoming := (closedAcks items acks).map some }
    have same : m.setComs p (Visit.effect (m.coms p) (.closed acks sends)) = m := setComs_self m p
    rw [same]
    exact answerRequest_sends p m s arrives (sendEntireFile_runs ⟨0, .server⟩ p m s₁ (closedAcks items acks)
      (length_closedAcks items acks) (closedAcks_small items acks) rfl)
  | update u =>
    have ran := processNextRequest_updates p u (carried u rfl) m s arrives
    rw [processNextRequest_eq, runs_call_iff] at ran
    obtain ⟨_, _, accepted, ran⟩ := ran
    cases accepted
    exact ran
  | gone failed =>
    have lost : (if failed then none else some [] : Option Bytes) = none ∨
        (if failed then none else some [] : Option Bytes) = some [] := by
      cases failed with
      | true => exact .inl rfl
      | false => exact .inr rfl
    have ran := processNextRequest_gone p m s arrives lost
    rw [processNextRequest_eq, runs_call_iff] at ran
    obtain ⟨_, _, accepted, ran⟩ := ran
    cases accepted
    have same : m.setComs p (Visit.effect (m.coms p) (.gone failed)) = m := setComs_self m p
    rw [same]
    exact ran
  | other code unknown =>
    let s₁ : Script := { s with incoming := [] }
    have same : m.setComs p (Visit.effect (m.coms p) (.other code unknown)) = m := setComs_self m p
    have nothing : s.sent ++ Visit.answer (m.coms p) (.other code unknown) = s.sent := List.append_nil _
    rw [same, nothing]
    simp only [answerRequest, recvUnchecked, recv, close, request, bind_eq, pure_eq, call_bind, ret_bind]
    refine .reply (some [code]) (m, s₁) (scripted_recv m s _ arrives (by rintro _ ⟨⟩; simp)) ?_
    simp only [ret_bind]
    rw [if_neg unknown.1, if_neg unknown.2]
    exact .reply () _ rfl .ret

/-! The sends on a connection that succeed are those within its limit. -/

def sentBy : platform.Call → List Bytes
  | .send _ bytes => [bytes]
  | _ => []

theorem scripted_sent {op : platform.Call} {r : op.Reply} (answered : scripted e op = some (r, e₁)) :
    e₁.2.sent = e.2.sent ++ sentBy op := by
  obtain ⟨m, s⟩ := e
  cases op with
  | act op =>
    simp only [system, Option.map_eq_some_iff] at answered
    obtain ⟨a, _, same⟩ := answered
    cases same
    exact (List.append_nil _).symm
  | recv socket len =>
    simp only [system, scriptNetwork] at answered
    split at answered
    · cases answered
    split at answered
    · cases answered
      exact (List.append_nil _).symm
    · cases answered
  | send socket bytes =>
    cases answered
    rfl
  | _ =>
    cases answered
    exact (List.append_nil _).symm

theorem runs_sent {program : Proc α} (ran : Runs scripted program e a e₁) :
    e.2.sent.length ≤ e₁.2.sent.length := by
  induction ran with
  | ret => exact Nat.le_refl _
  | call answered _ ih =>
    rw [scripted_sent answered, List.length_append] at ih
    omega
  | loop _ ih => exact ih

def Within (limit : Option Nat) (s : Script) : Prop := ∀ sends ∈ limit, s.sent.length ≤ sends

theorem limited_iff {op : platform.Call} {r : op.Reply} (within : Within limit e.2) :
    limited limit e op = some (r, e₁) ↔ scripted e op = some (r, e₁) ∧ Within limit e₁.2 := by
  have unsent : sentBy op = [] → limited limit e op = scripted e op →
      (limited limit e op = some (r, e₁) ↔ scripted e op = some (r, e₁) ∧ Within limit e₁.2) := by
    intro nothing alike
    rw [alike, iff_self_and]
    intro answered
    have same := scripted_sent answered
    rw [nothing, List.append_nil] at same
    simpa only [Within, same] using within
  obtain ⟨m, s⟩ := e
  cases op with
  | send socket bytes =>
    have grown : Within limit { s with sent := s.sent ++ [bytes] } ↔ ∀ sends ∈ limit, s.sent.length < sends := by
      simp only [Within, List.length_append, List.length_singleton, Nat.add_one_le_iff]
    by_cases room : ∀ sends ∈ limit, s.sent.length < sends
    · have alike : limited limit (m, s) (.send socket bytes) = scripted (m, s) (.send socket bytes) := if_pos room
      rw [alike, iff_self_and]
      rintro ⟨⟩
      exact grown.mpr room
    · have refused : limited limit (m, s) (.send socket bytes) = none := if_neg room
      rw [refused]
      constructor
      · rintro ⟨⟩
      · rintro ⟨answered, still⟩
        cases answered
        exact (room (grown.mp still)).elim
  | act op => exact unsent rfl rfl
  | _ => exact unsent rfl rfl

/-- A run on a connection goes through when it sends no more than the limit. -/
theorem runs_limited_iff {program : Proc α} (within : Within limit e.2) :
    Runs (limited limit) program e a e₁ ↔ Runs scripted program e a e₁ ∧ Within limit e₁.2 := by
  constructor
  · intro ran
    induction ran with
    | ret => exact ⟨.ret, within⟩
    | call answered _ ih =>
      obtain ⟨answered, within⟩ := (limited_iff within).mp answered
      obtain ⟨ran, within⟩ := ih within
      exact ⟨.call answered ran, within⟩
    | loop _ ih =>
      obtain ⟨ran, within⟩ := ih within
      exact ⟨.loop ran, within⟩
  · rintro ⟨ran, final⟩
    induction ran with
    | ret => exact .ret
    | call answered rest ih =>
      have now : Within limit _ := fun sends member => (runs_sent rest).trans (final sends member)
      exact .call ((limited_iff within).mpr ⟨answered, now⟩) (ih now final)
    | loop _ ih => exact .loop (ih within final)

theorem visiting_limited (n : Visiting) (e : Mem × Script) (op : platform.Call) (inVisit : InVisit op) :
    visiting (e.1, { n with script := some e.2 }) op =
      (limited n.limit e op).map fun answer => (answer.1, answer.2.1, { n with script := some answer.2.2 }) := by
  obtain ⟨m, s⟩ := e
  cases op with
  | act op =>
    simp only [system, Option.map_map]
    rfl
  | accept q => exact inVisit.elim
  | _ => rfl

/-- On its connection the client is answered as one by itself, within the limit. -/
theorem connection_runs_iff {program : Proc α} (asks : program.Asks InVisit) (n : Visiting)
    (within : Within n.limit e.2) :
    Runs visiting program (e.1, { n with script := some e.2 }) a E ↔
      ∃ e₁, Runs scripted program e a e₁ ∧ Within n.limit e₁.2 ∧ E = (e₁.1, { n with script := some e₁.2 }) := by
  let inside : Mem × Script → Mem × Visiting := fun e => (e.1, { n with script := some e.2 })
  constructor
  · intro ran
    obtain ⟨e₁, alone, same⟩ := asks.reflect (h := limited n.limit) (f := inside) (fun e op r E inVisit answered => by
      rw [visiting_limited n e op inVisit, Option.map_eq_some_iff] at answered
      obtain ⟨⟨r, e₁⟩, answered, same⟩ := answered
      cases same
      exact ⟨e₁, answered, rfl⟩) ran
    obtain ⟨alone, still⟩ := (runs_limited_iff within).mp alone
    exact ⟨e₁, alone, still, same⟩
  · rintro ⟨e₁, alone, still, rfl⟩
    refine asks.embed (h := limited n.limit) (f := inside) (fun e op r e₁ inVisit answered => ?_)
      ((runs_limited_iff within).mpr ⟨alone, still⟩)
    rw [visiting_limited n e op inVisit, answered]
    rfl

/-! The server as a store: an update writes to it, and a request for the file reads all of it. -/

def Visit.update? : Visit → Option Update
  | .update u => some u
  | _ => none

/-- The updates among the visits, one after another. -/
def replay (visits : List Visit) (r : Replica UInt8 Table) : Replica UInt8 Table :=
  (visits.filterMap Visit.update?).foldl (fun r u => ⟨u.id, u.apply r.state⟩) r

theorem replica_visits (visits : List Visit) (c : Coms) :
    (visits.foldl Visit.effect c).replica = replay visits c.replica := by
  induction visits generalizing c with
  | nil => rfl
  | cons visit visits ih =>
    rw [List.foldl_cons, ih]
    cases visit with
    | update u =>
      have updated : (c.actuallyUpdate u).replica = ⟨u.id, u.apply c.replica.state⟩ := by
        rw [Coms.replica, actuallyUpdate_table]
        rfl
      exact congrArg (replay visits) updated
    | _ => rfl

/-- A client that has closed its connection takes the number of entries, all entries and the version. -/
def Visit.Survived (table : Table) : Visit → Prop
  | .closed _ sends => table.keys.card + 2 ≤ sends
  | _ => True

/-- The process survives each client, at the table that the updates before it leave. -/
def Survived (visits : List Visit) (r : Replica UInt8 Table) : Prop :=
  ∀ before visit after, visits = before ++ visit :: after → visit.Survived (replay before r).state

theorem survived_cons (visit : Visit) (visits : List Visit) (c : Coms) :
    Survived (visit :: visits) c.replica ↔ visit.Survived c.table ∧ Survived visits (visit.effect c).replica := by
  have next : (visit.effect c).replica = replay [visit] c.replica := replica_visits [visit] c
  have behind : ∀ before, replay (visit :: before) c.replica = replay before (visit.effect c).replica := by
    intro before
    rw [← replica_visits, ← replica_visits]
    rfl
  constructor
  · intro survived
    refine ⟨survived [] visit visits rfl, ?_⟩
    rintro before other after rfl
    rw [← behind]
    exact survived (visit :: before) other after rfl
  · rintro ⟨first, rest⟩ before other after same
    cases before with
    | nil =>
      cases same
      exact first
    | cons _ before =>
      cases same
      rw [behind]
      exact rest before other after rfl

theorem survived_iff (visit : Visit) (c : Coms) (s : Script) (sent : s.sent = visit.answer c) :
    visit.Survived c.table ↔ Within visit.sends s := by
  have count : c.table.keys.card = c.ipHash.entries.length := by
    rw [Coms.table, Finmap.keys, ← List.length_map (f := Sigma.fst)]
    rfl
  cases visit with
  | closed acks sends =>
    have length : s.sent.length = c.table.keys.card + 2 := by
      rw [sent, count]
      exact length_fileItems c
    simp only [Visit.Survived, Within, Visit.sends, Option.mem_some_iff, forall_eq', length]
  | _ => exact iff_of_true trivial fun _ member => nomatch member

/-- A connection is gone through if and only if the process survives it. -/
theorem visit_runs_iff (p : UInt16) (visit : Visit) (carried : ∀ u, visit = .update u → u.Carried) (m : Mem)
    (n : Visiting) (waiting : n.waiting = visit :: rest) :
    Runs visiting (processNextRequest p) (m, n) code e₁ ↔
      visit.Survived (m.coms p).table ∧ code = 0 ∧ e₁ = (m.setComs p (visit.effect (m.coms p)),
        ⟨rest, some ⟨[], visit.answer (m.coms p), n.locals⟩, visit.sends, n.sent, n.locals⟩) := by
  let opened : Script := ⟨visit.incoming (m.coms p), [], n.locals⟩
  let begun : Visiting := ⟨rest, some opened, visit.sends, n.sent, n.locals⟩
  let ended : Script := ⟨[], visit.answer (m.coms p), n.locals⟩
  have accepted : visiting (m, n) (.accept p) = some (⟨0, .server⟩, m, begun) := by
    simp only [system, visitingNetwork, waiting, begun, opened]
  have whole := answerRequest_runs p visit carried m opened rfl
  have within : Within begun.limit opened := fun _ _ => Nat.zero_le _
  have answered := connection_runs_iff (answerRequest_inVisit p ⟨0, .server⟩) begun (e := (m, opened)) (a := code)
    (E := e₁) within
  rw [processNextRequest_eq, survived_iff visit (m.coms p) ended rfl]
  constructor
  · intro ran
    obtain ⟨_, _, begins, ran⟩ := runs_call_iff.mp ran
    cases accepted.symm.trans begins
    obtain ⟨e, alone, final, same⟩ := answered.mp ran
    obtain ⟨rfl, rfl⟩ := alone.unique whole
    exact ⟨final, rfl, same⟩
  · rintro ⟨final, rfl, same⟩
    exact .reply ⟨0, .server⟩ (m, begun) accepted (answered.mpr ⟨_, whole, final, same⟩)

/-- What one visitor after another is sent. -/
def visitAnswers : Coms → List Visit → List (List Bytes)
  | _, [] => []
  | c, visit :: visits => visit.answer c :: visitAnswers (visit.effect c) visits

abbrev VisitRun : Proc UInt8 × Mem × Visiting → Proc UInt8 × Mem × Visiting → Prop :=
  ReflTransGen (Alone fun e op r e₁ => visiting e op = some (r, e₁))

/-- All clients have been served, and the thread is about to accept another. -/
def WaitsForNext (p : UInt16) (X : Proc UInt8 × Mem × Visiting) : Prop :=
  (∃ k, X.1 = @Program.call platform.interface _ (.accept p) k) ∧ X.2.2.waiting = []

theorem unroll_requests (p : UInt16) :
    unroll () (fun _ => (processNextRequest p).bind fun _ => .ret (.inl ())) (.ret : UInt8 → Proc UInt8) =
      (processNextRequest p).bind fun _ => checkHostsRequests p := by
  simp only [unroll, bind_assoc, ret_bind]
  rfl

theorem checkHostsRequests_turn (p : UInt16) (e : Mem × Visiting) :
    Alone (fun e op r e₁ => visiting e op = some (r, e₁)) (checkHostsRequests p, e) Y ↔
      Y = ((processNextRequest p).bind fun _ => checkHostsRequests p, e) := by
  rw [← unroll_requests]
  constructor
  · intro turned
    cases turned with
    | turn => rfl
    | drift changed => exact changed.elim
  · rintro rfl
    exact .turn

/-- A thread that survives its clients serves them. -/
theorem visits_run (p : UInt16) (visits : List Visit) (carried : ∀ u, .update u ∈ visits → u.Carried) (m : Mem)
    (n : Visiting) (waiting : n.waiting = visits) (survived : Survived visits (m.coms p).replica) :
    ∃ X, VisitRun (checkHostsRequests p, m, n) X ∧ WaitsForNext p X := by
  induction visits generalizing m n with
  | nil => exact ⟨_, .single ((checkHostsRequests_turn p _).mpr rfl), ⟨_, rfl⟩, waiting⟩
  | cons visit visits ih =>
    obtain ⟨first, rest⟩ := (survived_cons visit visits (m.coms p)).mp survived
    let m₁ := m.setComs p (visit.effect (m.coms p))
    let n₁ : Visiting := ⟨visits, some ⟨[], visit.answer (m.coms p), n.locals⟩, visit.sends, n.sent, n.locals⟩
    have ran : Runs visiting (processNextRequest p) (m, n) 0 (m₁, n₁) :=
      (visit_runs_iff p visit (fun u same => carried u (same ▸ List.mem_cons_self)) m n waiting).mpr ⟨first, rfl, rfl⟩
    have rest : Survived visits (m₁.coms p).replica := by rwa [setComs_same]
    obtain ⟨X, more, waits⟩ := ih (fun u member => carried u (List.mem_cons_of_mem _ member)) m₁ n₁ rfl rest
    have served : VisitRun ((processNextRequest p).bind fun _ => checkHostsRequests p, m, n)
        (checkHostsRequests p, m₁, n₁) :=
      ran.shared (fun _ _ _ _ answered => answered) fun _ => checkHostsRequests p
    exact ⟨X, .head ((checkHostsRequests_turn p _).mpr rfl) (served.trans more), waits⟩

/-- Where the thread accepts a client it is in no connection. -/
theorem waits_after (run : VisitRun (checkHostsRequests p, e) X) (waits : WaitsForNext p X) :
    X.2 = e ∨ ∃ code e₁, Runs visiting (processNextRequest p) e code e₁ ∧ VisitRun (checkHostsRequests p, e₁) X := by
  obtain ⟨⟨k, accepts⟩, _⟩ := waits
  rcases run.cases_head with rfl | ⟨Y, turned, run⟩
  · cases accepts
  obtain rfl := (checkHostsRequests_turn p e).mp turned
  rcases alone_bind run with ⟨q, e₁, inner, rfl⟩ | ⟨code, e₁, inner, rest⟩
  · left
    rcases inner.cases_head with same | ⟨Y, accepted, inner⟩
    · cases same
      rfl
    rw [processNextRequest_eq] at accepted
    have asks : q.Asks InVisit := by
      cases accepted with
      | call _ => exact asks_shared inner (answerRequest_inVisit p _)
      | drift changed => exact changed.elim
    cases q with
    | ret code => cases accepts
    | call op k =>
      cases accepts
      exact asks.1.elim
    | loop b body k => cases accepts
  · exact .inr ⟨code, e₁, runs_of_alone inner, rest⟩

/-- A thread that has served its clients has survived them. -/
theorem visits_served (p : UInt16) (visits : List Visit) (carried : ∀ u, .update u ∈ visits → u.Carried) (m : Mem)
    (n : Visiting) (waiting : n.waiting = visits) (run : VisitRun (checkHostsRequests p, m, n) X)
    (waits : WaitsForNext p X) :
    Survived visits (m.coms p).replica ∧ X.2.1 = m.setComs p (visits.foldl Visit.effect (m.coms p)) ∧
      X.2.2.sent = n.sent ++ visitAnswers (m.coms p) visits := by
  induction visits generalizing m n with
  | nil =>
    rcases waits_after run waits with same | ⟨code, e₁, ran, _⟩
    · refine ⟨?_, ?_, ?_⟩
      · rintro before visit after none
        simp at none
      · rw [same, List.foldl_nil, setComs_self]
      · rw [same, visitAnswers, List.append_nil]
    · obtain ⟨_, _, accepted, _⟩ := runs_call_iff.mp ran
      simp only [system, visitingNetwork, waiting, reduceCtorEq] at accepted
  | cons visit visits ih =>
    rcases waits_after run waits with same | ⟨code, e₁, ran, rest⟩
    · have none := waits.2
      rw [same, waiting] at none
      cases none
    · obtain ⟨first, _, rfl⟩ :=
        (visit_runs_iff p visit (fun u same => carried u (same ▸ List.mem_cons_self)) m n waiting).mp ran
      obtain ⟨survived, memory, sent⟩ := ih (fun u member => carried u (List.mem_cons_of_mem _ member)) _ _ rfl rest
      rw [setComs_same] at survived memory sent
      refine ⟨(survived_cons visit visits (m.coms p)).mpr ⟨first, survived⟩, ?_, ?_⟩
      · rw [memory, setComs_setComs, List.foldl_cons]
      · rw [sent, Visiting.sent, List.append_assoc]
        rfl

@[simp] theorem length_visitAnswers (c : Coms) (visits : List Visit) :
    (visitAnswers c visits).length = visits.length := by
  induction visits generalizing c with
  | nil => rfl
  | cons visit visits ih => rw [visitAnswers, List.length_cons, List.length_cons, ih]

theorem visitAnswers_at (c : Coms) (before : List Visit) (visit : Visit) (after : List Visit) :
    (visitAnswers c (before ++ visit :: after))[before.length]? =
      some (visit.answer (before.foldl Visit.effect c)) := by
  induction before generalizing c with
  | nil => rfl
  | cons first before ih =>
    rw [List.cons_append, visitAnswers, List.length_cons, List.getElem?_cons_succ, List.foldl_cons]
    exact ih (first.effect c)

/-- Every client has been answered from the updates of those before it, and a client that was gone too early has left
no trace. -/
structure AnsweredInOrder (p : UInt16) (visits : List Visit) (m m₁ : Mem) (sent : List (List Bytes)) : Prop where
  replica : (m₁.coms p).replica = replay visits (m.coms p).replica
  others : ∀ q, q ≠ p → m₁.coms q = m.coms q
  length : sent.length = visits.length
  each : ∀ before visit after, visits = before ++ visit :: after →
    ∃ c : Coms, c.replica = replay before (m.coms p).replica ∧ sent[before.length]? = some (visit.answer c)

/-- The thread comes to wait for another client if and only if it survives those before. Then it has served all of
them, in the order in which they connected. -/
theorem visits_answered (p : UInt16) (visits : List Visit) (carried : ∀ u, .update u ∈ visits → u.Carried) (m : Mem)
    (locals : (n : Nat) → { bytes : Bytes // bytes.length = n }) :
    ((∃ X, VisitRun (checkHostsRequests p, m, ⟨visits, none, none, [], locals⟩) X ∧ WaitsForNext p X) ↔
        Survived visits (m.coms p).replica) ∧
      ∀ X, VisitRun (checkHostsRequests p, m, ⟨visits, none, none, [], locals⟩) X → WaitsForNext p X →
        AnsweredInOrder p visits m X.2.1 X.2.2.sent := by
  refine ⟨⟨?_, visits_run p visits carried m _ rfl⟩, ?_⟩
  · rintro ⟨X, run, waits⟩
    exact (visits_served p visits carried m _ rfl run waits).1
  · intro X run waits
    obtain ⟨_, memory, sent⟩ := visits_served p visits carried m _ rfl run waits
    have sent : X.2.2.sent = visitAnswers (m.coms p) visits := sent
    rw [memory, sent]
    refine ⟨?_, ?_, length_visitAnswers _ visits, ?_⟩
    · rw [setComs_same]
      exact replica_visits visits (m.coms p)
    · exact fun q other => setComs_other m other _
    · rintro before visit after rfl
      exact ⟨before.foldl Visit.effect (m.coms p), replica_visits before (m.coms p), visitAnswers_at ..⟩

def fourVisits (sends : Nat) : List Visit :=
  [.update (addNewDomain 1), .gone true, .closed 0 sends, .fetch 2]

theorem survived_fourVisits (sends : Nat) :
    Survived (fourVisits sends) ((startMem .roundRobin).coms 1).replica ↔ 3 ≤ sends := by
  let c := ((startMem .roundRobin).coms 1).actuallyUpdate (addNewDomain 1)
  have one : c.table.keys.card = 1 := by decide
  have none : Survived [] c.replica := by
    rintro before visit after same
    simp at same
  rw [fourVisits, survived_cons, survived_cons, survived_cons, survived_cons]
  simp only [Visit.Survived, Visit.effect, true_and]
  change c.table.keys.card + 2 ≤ sends ∧ Survived [] c.replica ↔ 3 ≤ sends
  rw [one, and_iff_left none]

/-- An update, a client that is gone, one that closes at once, and a request for the file behind them. -/
theorem visits_answered_four :
    (∃ X, VisitRun (checkHostsRequests 1, startMem .roundRobin, ⟨fourVisits 3, none, none, [], zeros⟩) X ∧
      WaitsForNext 1 X ∧ AnsweredInOrder 1 (fourVisits 3) (startMem .roundRobin) X.2.1 X.2.2.sent) ∧
    ¬ ∃ X, VisitRun (checkHostsRequests 1, startMem .roundRobin, ⟨fourVisits 1, none, none, [], zeros⟩) X ∧
      WaitsForNext 1 X := by
  have carried : ∀ sends u, Visit.update u ∈ fourVisits sends → u.Carried := by
    intro sends u member
    simp only [fourVisits, List.mem_cons, Visit.update.injEq, reduceCtorEq, List.not_mem_nil, or_false] at member
    subst member
    exact addNewDomain_carried 1
  constructor
  · obtain ⟨served, answered⟩ := visits_answered 1 (fourVisits 3) (carried 3) (startMem .roundRobin) zeros
    obtain ⟨X, run, waits⟩ := served.mpr ((survived_fourVisits 3).mpr (Nat.le_refl 3))
    exact ⟨X, run, waits, answered X run waits⟩
  · rw [(visits_answered 1 (fourVisits 1) (carried 1) (startMem .roundRobin) zeros).1, survived_fourVisits]
    decide

end DnsServer
