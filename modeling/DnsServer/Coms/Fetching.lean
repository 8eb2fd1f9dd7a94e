import DnsServer.Coms.Requests
import DnsServer.Coms.Sequential

/-! What a request for the hosts file does to the table on its way: the table is cleared first and filled
entry by entry, so that a request that fails leaves the entries that have come. -/
namespace DnsServer
open Process Program Memory

/-! The receive loop of one text, turn by turn. -/

/-- The state after a chunk, or the buffer with the text; `none` where the byte that is tested lies outside. -/
def chunkAfter (buffer : Bytes) (count : Nat) (bytes : Bytes) : Option (Bytes × Nat ⊕ Bytes) :=
  let buffer := bytes ++ buffer.drop bytes.length
  let count := count + bytes.length
  (if count = 0 then none else buffer[count - 1]?).map fun last =>
    if last = 0 then .inr buffer else .inl (buffer, count)

/-- The loop in a state of its own. -/
def textFrom (socket : Socket) (buffer : Bytes) (count : Nat) : Proc (Option Bytes) :=
  .loop (buffer, count) (recieveChunk socket false) .ret

def afterChunk (socket : Socket) : Option (Bytes × Nat ⊕ Bytes) → Proc (Option Bytes)
  | none => fault
  | some (.inl (buffer, count)) => textFrom socket buffer count
  | some (.inr buffer) => .ret (some buffer)

theorem textFrom_turn (socket : Socket) (buffer : Bytes) (count : Nat) :
    ∃ k, unroll (buffer, count) (recieveChunk socket false) .ret =
      @Program.call platform.interface (Option Bytes) (.recv socket textSize) k ∧
        k none = .ret none ∧ ∀ bytes, k (some bytes) = afterChunk socket (chunkAfter buffer count bytes) := by
  simp only [unroll, recieveChunk, recv, request, bind_eq, pure_eq, call_bind, ret_bind]
  refine ⟨_, rfl, rfl, fun bytes => ?_⟩
  simp only [Bool.false_and, Bool.false_eq_true, if_false, chunkAfter]
  generalize (if count + bytes.length = 0 then none
    else (bytes ++ buffer.drop bytes.length)[count + bytes.length - 1]?) = tested
  cases tested with
  | none => exact fault_bind _
  | some last => by_cases zero : last = 0 <;> simp [zero, afterChunk, textFrom]

theorem not_traces_fault {tr : List (Event platform.interface)} : ¬ Traces (fault : Proc α) tr a := by
  intro traced
  obtain ⟨impossible, _⟩ := traces_call_iff.mp traced
  exact impossible.elim

/-- A text is received chunk by chunk, until its loop ends or a receive fails. -/
theorem textFrom_traces {tr : List (Event platform.interface)} :
    Traces (textFrom socket buffer count) tr result ↔
      result = none ∧ tr = [⟨.recv socket textSize, none⟩] ∨
      ∃ bytes rest, tr = ⟨.recv socket textSize, some bytes⟩ :: rest ∧
        Traces (afterChunk socket (chunkAfter buffer count bytes)) rest result := by
  obtain ⟨k, turn, failed, next⟩ := textFrom_turn socket buffer count
  rw [textFrom, traces_loop_iff, turn, traces_call_iff]
  constructor
  · rintro ⟨outcome, rest, rfl, traced⟩
    cases outcome with
    | none =>
      rw [failed] at traced
      obtain ⟨rfl, rfl⟩ := traces_ret_iff.mp traced
      exact .inl ⟨rfl, rfl⟩
    | some bytes =>
      rw [next] at traced
      exact .inr ⟨bytes, rest, rfl, traced⟩
  · rintro (⟨rfl, rfl⟩ | ⟨bytes, rest, rfl, traced⟩)
    · refine ⟨none, [], rfl, ?_⟩
      rw [failed]
      exact .ret
    · refine ⟨some bytes, rest, rfl, ?_⟩
      rw [next]
      exact traced

/-! What a trace leaves of the memory, and what has been fetched in it. -/

def stored (m : Mem) (event : Event platform.interface) : Mem :=
  match event.op with
  | .act op => ((m.perform silentWorld op).map Prod.snd).getD m
  | _ => m

def memAfter (m : Mem) (tr : List (Event platform.interface)) : Mem := tr.foldl stored m

/-- A trace keeps what none of its calls changes. -/
theorem memAfter_keeps {ok : platform.Call → Prop} {f : Mem → β}
    (keeps : ∀ m event, ok event.op → f (stored m event) = f m) {tr : List (Event platform.interface)}
    (asks : ∀ event ∈ tr, ok event.op) (m : Mem) : f (memAfter m tr) = f m := by
  induction tr generalizing m with
  | nil => rfl
  | cons event tr ih =>
    obtain ⟨first, rest⟩ := List.forall_mem_cons.mp asks
    exact (ih rest (stored m event)).trans (keeps m event first)

theorem stored_of_perform {m : Mem} {op : Op} {r : op.Reply} (performed : m.perform world op = some (r, m₁)) :
    stored m ⟨.act op, r⟩ = m₁ := by
  cases op with
  | addServer dns =>
    change ((m.perform silentWorld (.addServer dns)).map Prod.snd).getD m = m₁
    have alike : m.perform silentWorld (.addServer dns) = some (r, m₁) := performed
    rw [alike]
    rfl
  | shiftOut dnsId =>
    change ((m.perform silentWorld (.shiftOut dnsId)).map Prod.snd).getD m = m₁
    have alike : m.perform silentWorld (.shiftOut dnsId) = some (r, m₁) := performed
    rw [alike]
    rfl
  | sendPacket portNum message =>
    obtain ⟨_, _, same⟩ := Option.map_eq_some_iff.mp performed
    cases same
    rfl
  | recvfrom =>
    obtain ⟨_, _, same⟩ := Option.map_eq_some_iff.mp performed
    cases same
    rfl
  | garbage n =>
    obtain ⟨_, _, same⟩ := Option.map_eq_some_iff.mp performed
    cases same
    rfl
  | fault => cases performed
  | _ =>
    cases performed
    rfl

/-- A program run by itself leaves the memory that its trace does. -/
theorem answered_memAfter {network : Network N} {tr : List (Event platform.interface)}
    (keeps : ∀ e call r e₁, network e call = some (r, e₁) → e₁.1 = e.1)
    (answered : Answered (system world network) e tr e₁) : e₁.1 = memAfter e.1 tr := by
  induction answered with
  | nil => rfl
  | cons asked _ ih =>
    rename_i e op r e₂ tr e₃ _
    rw [ih, memAfter, memAfter, List.foldl_cons]
    congr 1
    cases op with
    | act op =>
      obtain ⟨performed, done, same⟩ := Option.map_eq_some_iff.mp asked
      cases same
      exact (stored_of_perform done).symm
    | lock _ =>
      cases asked
      rfl
    | unlock _ =>
      cases asked
      rfl
    | _ => exact keeps _ _ _ _ asked

/-- The entries that have come since the table was cleared, and what the buffer holds of the next one. -/
structure Fetch where
  entries : List (Sigma fun _ : Bytes => Bytes)
  buffer : Bytes
  count : Nat

def Fetch.finish (f : Fetch) (buffer : Bytes) : Fetch where
  entries := f.entries ++ ((decodeEntry buffer).map fun entry => ⟨entry.1, entry.2⟩).toList
  buffer := endDomain buffer
  count := 0

def Fetch.hear (f : Fetch) (bytes : Bytes) : Fetch :=
  match chunkAfter f.buffer f.count bytes with
  | none => f
  | some (.inl (buffer, count)) => { f with buffer, count }
  | some (.inr buffer) => f.finish buffer

/-- Texts, and only texts, are received `textSize` bytes at a time. -/
def fetch : Option Fetch → Event platform.interface → Option Fetch
  | _, ⟨.act (.clear _), _⟩ => some ⟨[], [], 0⟩
  | f, ⟨.act (.garbage n), bytes⟩ => if n = textSize then f.map fun f => { f with buffer := bytes.val } else f
  | f, ⟨.recv _ len, some bytes⟩ => if len = textSize then f.map fun f => f.hear bytes else f
  | f, _ => f

/-- A call that leaves the table and the texts alone. -/
def aside : platform.Call → Prop
  | .recv _ len => len ≠ textSize
  | .act (.garbage n) => n ≠ textSize
  | .act _ => False
  | _ => True

theorem aside_leaves {event : Event platform.interface} (besides : aside event.op) (m : Mem) (f : Option Fetch) :
    stored m event = m ∧ fetch f event = f := by
  obtain ⟨op, r⟩ := event
  cases op with
  | recv socket len =>
    cases r with
    | none => exact ⟨rfl, rfl⟩
    | some bytes => exact ⟨rfl, if_neg besides⟩
  | act op =>
    cases op with
    | garbage n => exact ⟨rfl, if_neg besides⟩
    | _ => exact besides.elim
  | _ => exact ⟨rfl, rfl⟩

theorem all_aside_leave {tr : List (Event platform.interface)} (besides : ∀ event ∈ tr, aside event.op) (m : Mem)
    (f : Option Fetch) : memAfter m tr = m ∧ tr.foldl fetch f = f := by
  induction tr with
  | nil => exact ⟨rfl, rfl⟩
  | cons event tr ih =>
    obtain ⟨first, rest⟩ := List.forall_mem_cons.mp besides
    obtain ⟨same, same'⟩ := aside_leaves first m f
    rw [memAfter, List.foldl_cons, List.foldl_cons, same, same']
    exact ih rest

theorem fetch_text (f : Fetch) (socket : Socket) (bytes : Bytes) :
    fetch (some f) ⟨.recv socket textSize, some bytes⟩ = some (f.hear bytes) := by
  simp [fetch]

/-- The loop of a text leaves the memory alone, and fetches the entry of the text it ends with. -/
theorem textFrom_fetches {tr : List (Event platform.interface)}
    (traced : Traces (textFrom socket buffer count) tr result) (m : Mem)
    (entries : List (Sigma fun _ : Bytes => Bytes)) : memAfter m tr = m ∧
      ∃ f, tr.foldl fetch (some ⟨entries, buffer, count⟩) = some f ∧
        (result = none → f.entries = entries) ∧
        ∀ text, result = some text → f = Fetch.finish ⟨entries, buffer, count⟩ text := by
  induction tr generalizing buffer count with
  | nil =>
    rcases textFrom_traces.mp traced with ⟨_, none⟩ | ⟨_, _, none, _⟩
    · cases none
    · cases none
  | cons event tr ih =>
    rcases textFrom_traces.mp traced with ⟨rfl, same⟩ | ⟨bytes, rest, same, next⟩
    · cases same
      exact ⟨rfl, _, rfl, fun _ => rfl, by rintro _ ⟨⟩⟩
    · cases same
      rw [List.foldl_cons, fetch_text, Fetch.hear]
      change memAfter m tr = m ∧ _
      cases after : chunkAfter buffer count bytes with
      | none =>
        rw [after] at next
        exact absurd next not_traces_fault
      | some turn =>
        rw [after] at next
        cases turn with
        | inl state => exact ih next
        | inr text =>
          obtain ⟨rfl, rfl⟩ := traces_ret_iff.mp next
          refine ⟨rfl, _, rfl, by rintro ⟨⟩, ?_⟩
          rintro _ ⟨⟩
          rfl

/-- The table and the version of a server. -/
structure Left (coms : UInt16) (m m₁ : Mem) (table : Table) : Prop where
  table : (m₁.coms coms).table = table
  version : (m₁.coms coms).versionNum = (m.coms coms).versionNum

theorem memAfter_append (m : Mem) (tr tr' : List (Event platform.interface)) :
    memAfter m (tr ++ tr') = memAfter (memAfter m tr) tr' := List.foldl_append

/-- The loop over the entries stores each one that has been fetched. -/
theorem recieveEntries_fetches {tr : List (Event platform.interface)}
    (traced : Traces (recieveEntries socket coms n buffer) tr code) (m : Mem)
    (entries : List (Sigma fun _ : Bytes => Bytes)) :
    ∃ f new, tr.foldl fetch (some ⟨entries, buffer, 0⟩) = some f ∧ f.entries = entries ++ new ∧
      Left coms m (memAfter m tr) (copyEntries (m.coms coms).table new) := by
  induction n generalizing buffer tr m entries with
  | zero =>
    obtain ⟨rfl, rfl⟩ := traces_ret_iff.mp traced
    exact ⟨_, [], rfl, (List.append_nil _).symm, rfl, rfl⟩
  | succ n ih =>
    simp only [recieveEntries, send, act, close, request, bind_eq, pure_eq, call_bind, ret_bind] at traced
    obtain ⟨sent, rest, rfl, asked⟩ := traces_call_iff.mp traced
    change ∃ f new, rest.foldl fetch (some ⟨entries, buffer, 0⟩) = some f ∧ f.entries = entries ++ new ∧
      Left coms m (memAfter m rest) (copyEntries (m.coms coms).table new)
    cases sent with
    | false =>
      obtain ⟨_, rfl⟩ := traces_ret_iff.mp asked
      exact ⟨_, [], rfl, (List.append_nil _).symm, rfl, rfl⟩
    | true =>
      obtain ⟨result, before, after, rfl, loop, continued⟩ := Traces.split asked
      obtain ⟨same, f, fetched, lost, whole⟩ := textFrom_fetches loop m entries
      rw [List.foldl_append, fetched, memAfter_append, same]
      cases result with
      | none =>
        obtain ⟨_, _, rfl, closed⟩ := traces_call_iff.mp continued
        obtain ⟨_, rfl⟩ := traces_ret_iff.mp closed
        refine ⟨f, [], rfl, ?_, rfl, rfl⟩
        rw [lost rfl, List.append_nil]
      | some text =>
        obtain rfl := whole text rfl
        simp only at continued
        split at continued
        · exact absurd continued not_traces_fault
        · next domain ip decoded =>
          obtain ⟨_, rest, rfl, following⟩ := traces_call_iff.mp continued
          have more : (Fetch.finish ⟨entries, buffer, 0⟩ text).entries = entries ++ [⟨domain, ip⟩] := by
            simp [Fetch.finish, decoded]
          obtain ⟨f, new, fetched', held, table, version⟩ := ih following
            (m.setComs coms { m.coms coms with ipHash := (m.coms coms).ipHash.insert domain ip })
            (Fetch.finish ⟨entries, buffer, 0⟩ text).entries
          refine ⟨f, ⟨domain, ip⟩ :: new, fetched', ?_, ?_, ?_⟩
          · rw [held, more, List.append_assoc, List.singleton_append]
          · rw [setComs_same] at table
            have inserted := Finmap.insert_toFinmap domain ip (m.coms coms).ipHash
            change _ = copyEntries (Finmap.insert domain ip (m.coms coms).ipHash.toFinmap) new
            rw [inserted]
            exact table
          · rw [setComs_same] at version
            exact version

theorem recvUnchecked_aside (socket : Socket) : (recvUnchecked socket).Asks aside := by
  have one : (1 : Nat) ≠ textSize := by decide
  exact recvUnchecked_asks aside one one

/-- A request clears the table and stores the entries it fetches; one that fails leaves the version. -/
theorem requestHosts_stores {tr : List (Event platform.interface)} (traced : Traces (requestHosts coms portNum) tr code)
    (m : Mem) (start : Option Fetch) :
    ∃ f, tr.foldl fetch start = some f ∧ ((memAfter m tr).coms coms).table = copyEntries ∅ f.entries ∧
      (code ≠ 0 → ((memAfter m tr).coms coms).versionNum = (m.coms coms).versionNum) := by
  simp only [requestHosts, connectToTcp, send, act, close, request, bind_eq, pure_eq, call_bind, ret_bind] at traced
  obtain ⟨_, _, rfl, cleared⟩ := traces_call_iff.mp traced
  obtain ⟨socket, _, rfl, connected⟩ := traces_call_iff.mp cleared
  obtain ⟨sent, rest, rfl, asked⟩ := traces_call_iff.mp connected
  let m₁ := m.setComs coms { m.coms coms with ipHash := ∅ }
  have version₁ : (m₁.coms coms).versionNum = (m.coms coms).versionNum := by rw [setComs_same]
  have table₁ : (m₁.coms coms).table = ∅ := by
    rw [setComs_same]
    rfl
  change ∃ f, rest.foldl fetch (some ⟨[], [], 0⟩) = some f ∧
    ((memAfter m₁ rest).coms coms).table = copyEntries ∅ f.entries ∧
      (code ≠ 0 → ((memAfter m₁ rest).coms coms).versionNum = (m.coms coms).versionNum)
  cases sent with
  | false =>
    obtain ⟨_, rfl⟩ := traces_ret_iff.mp asked
    exact ⟨_, rfl, table₁, fun _ => version₁⟩
  | true =>
    obtain ⟨transCnt, counting, after, rfl, counted, continued⟩ := Traces.split asked
    obtain ⟨same, same'⟩ := all_aside_leave ((recvUnchecked_aside socket).traces counted) m₁ (some ⟨[], [], 0⟩)
    rw [List.foldl_append, memAfter_append, same, same']
    obtain ⟨buffer, _, rfl, filling⟩ := traces_call_iff.mp continued
    obtain ⟨recieved, loop, ending, rfl, entries, ends⟩ := Traces.split filling
    obtain ⟨f, new, fetched, held, table, version⟩ := recieveEntries_fetches entries m₁ []
    rw [List.nil_append] at held
    rw [table₁] at table
    rw [version₁] at version
    have start' : fetch (some ⟨[], [], 0⟩) ⟨.act (.garbage textSize), buffer⟩ = some ⟨[], buffer.val, 0⟩ := by
      simp [fetch]
    rw [List.foldl_cons, start', List.foldl_append, fetched]
    change ∃ f', ending.foldl fetch (some f) = some f' ∧
      ((memAfter m₁ (loop ++ ending)).coms coms).table = copyEntries ∅ f'.entries ∧
        (code ≠ 0 → ((memAfter m₁ (loop ++ ending)).coms coms).versionNum = (m.coms coms).versionNum)
    rw [memAfter_append]
    rw [← held] at table
    split at ends
    · obtain ⟨_, rfl⟩ := traces_ret_iff.mp ends
      exact ⟨f, rfl, table, fun _ => version⟩
    · obtain ⟨sent, _, rfl, acked⟩ := traces_call_iff.mp ends
      cases sent with
      | false =>
        obtain ⟨_, rfl⟩ := traces_ret_iff.mp acked
        exact ⟨f, rfl, table, fun _ => version⟩
      | true =>
        obtain ⟨ver, versioning, _, rfl, heard, versioned⟩ := Traces.split acked
        obtain ⟨_, _, rfl, closing⟩ := traces_call_iff.mp versioned
        obtain ⟨_, _, rfl, closed⟩ := traces_call_iff.mp closing
        obtain ⟨rfl, rfl⟩ := traces_ret_iff.mp closed
        obtain ⟨same, same'⟩ := all_aside_leave ((recvUnchecked_aside socket).traces heard) (memAfter m₁ loop) (some f)
        refine ⟨f, ?_, ?_, fun failed => absurd rfl failed⟩
        · rw [List.foldl_cons]
          change (versioning ++ _).foldl fetch (some f) = some f
          rw [List.foldl_append, same']
          rfl
        · rw [← table]
          change ((memAfter (memAfter m₁ loop) (versioning ++ _)).coms coms).table = _
          rw [memAfter_append, same]
          change (Mem.coms (Mem.setComs _ coms _) coms).table = _
          rw [setComs_same]
          rfl

/-- A request that fails has cleared the table and stored the entries it has fetched. -/
theorem requestHosts_fetches {tr : List (Event platform.interface)}
    (traced : Traces (requestHosts coms portNum) tr code) (failed : code ≠ 0) (m : Mem) (start : Option Fetch) :
    ∃ f, tr.foldl fetch start = some f ∧ Left coms m (memAfter m tr) (copyEntries ∅ f.entries) := by
  obtain ⟨f, fetched, table, version⟩ := requestHosts_stores traced m start
  exact ⟨f, fetched, table, version failed⟩

/-- The ports are tried in turn; what the last request has fetched is left. -/
theorem requestAny_fetches {tr : List (Event platform.interface)} (traced : Traces (requestAny coms ports) tr false)
    (m : Mem) (start : Option Fetch) :
    tr = [] ∨ ∃ f, tr.foldl fetch start = some f ∧ Left coms m (memAfter m tr) (copyEntries ∅ f.entries) := by
  induction ports generalizing tr m start with
  | nil =>
    obtain ⟨_, rfl⟩ := traces_ret_iff.mp traced
    exact .inl rfl
  | cons port ports ih =>
    obtain ⟨code, first, rest, rfl, requested, continued⟩ := Traces.split traced
    split at continued
    · obtain ⟨impossible, _⟩ := traces_ret_iff.mp continued
      cases impossible
    · next failed =>
      obtain ⟨f, fetched, table, version⟩ := requestHosts_fetches requested failed m start
      right
      rw [List.foldl_append, memAfter_append, fetched]
      rcases ih continued (memAfter m first) (some f) with rfl | ⟨f', fetched', table', version'⟩
      · exact ⟨f, rfl, table, version⟩
      · exact ⟨f', fetched', table', version'.trans version⟩

theorem recievePorts_aside (socket : Socket) (n : Nat) (ports : List UInt16) :
    (recievePorts socket n ports).Asks aside := by
  have one : (1 : Nat) ≠ textSize := by decide
  have two : (2 : Nat) ≠ textSize := by decide
  exact recievePorts_asks aside trivial two one one n ports

/-! A transfer that fails. -/

def Untouched (coms : UInt16) (m m₁ : Mem) : Prop := Left coms m m₁ (m.coms coms).table

/-- The entries fetched since the table was last cleared, if it was, are just those that it had. -/
def Refetched (coms : UInt16) (m : Mem) (tr : List (Event platform.interface)) : Prop :=
  ∀ f, tr.foldl fetch none = some f → copyEntries ∅ f.entries = (m.coms coms).table

theorem untouched_iff {tr : List (Event platform.interface)} (fetched : tr.foldl fetch none = some f)
    (left : Left coms m (memAfter m tr) (copyEntries ∅ f.entries)) :
    Untouched coms m (memAfter m tr) ↔ Refetched coms m tr := by
  constructor
  · intro untouched f' fetched'
    cases fetched.symm.trans fetched'
    exact left.table.symm.trans untouched.table
  · intro refetched
    exact ⟨left.table.trans (refetched f fetched), left.version⟩

theorem updateAndOnline_untouched_iff {tr : List (Event platform.interface)}
    (traced : Traces (updateAndOnline dnsServer) tr 1) (m : Mem) :
    Untouched dnsServer.tcpPortNum m (memAfter m tr) ↔ Refetched dnsServer.tcpPortNum m tr := by
  have never : ∀ {tr : List (Event platform.interface)}, memAfter m tr = m → tr.foldl fetch none = none →
      (Untouched dnsServer.tcpPortNum m (memAfter m tr) ↔ Refetched dnsServer.tcpPortNum m tr) := by
    intro tr same none
    rw [same]
    refine iff_of_true ⟨rfl, rfl⟩ fun f fetched => ?_
    cases none.symm.trans fetched
  simp only [updateAndOnline, connectToTcp, send, close, request, bind_eq, pure_eq, call_bind, ret_bind] at traced
  obtain ⟨socket, _, rfl, session⟩ := traces_call_iff.mp traced
  obtain ⟨portCnt, counting, _, rfl, counted, continued⟩ := Traces.split session
  obtain ⟨got, listing, rest, rfl, listed, requests⟩ := Traces.split continued
  have besides : ∀ event ∈ (⟨.connect routerTcpPortNum, socket⟩ : Event platform.interface) :: (counting ++ listing),
      aside event.op := by
    intro event member
    rcases List.mem_cons.mp member with rfl | member
    · trivial
    · rcases List.mem_append.mp member with member | member
      · exact (recvUnchecked_aside socket).traces counted event member
      · exact (recievePorts_aside socket _ _).traces listed event member
  obtain ⟨same, nothing⟩ := all_aside_leave besides m none
  rw [← List.append_assoc, ← List.cons_append]
  cases got with
  | none =>
    obtain ⟨_, rfl⟩ := traces_ret_iff.mp requests
    rw [List.append_nil]
    exact never same nothing
  | some ports =>
    obtain ⟨found, asking, ending, rfl, asked, ends⟩ := Traces.split requests
    cases found with
    | true =>
      obtain ⟨_, _, rfl, answering⟩ := traces_call_iff.mp ends
      obtain ⟨_, _, rfl, closing⟩ := traces_call_iff.mp answering
      obtain ⟨impossible, _⟩ := traces_ret_iff.mp closing
      cases impossible
    | false =>
      obtain ⟨_, _, rfl, closing⟩ := traces_call_iff.mp ends
      obtain ⟨_, rfl⟩ := traces_ret_iff.mp closing
      rcases requestAny_fetches asked m none with rfl | ⟨f, fetched, left⟩
      · refine never ?_ ?_
        · rw [memAfter_append, same]
          rfl
        · rw [List.foldl_append, nothing]
          rfl
      · apply untouched_iff
        · rw [List.foldl_append, nothing, List.foldl_append, fetched]
          rfl
        · rw [memAfter_append, same, memAfter_append]
          exact left

/-- A call that fails leaves the table and the version alone exactly when the table consists of the entries
that have come since it was cleared. -/
theorem failed_transfer_iff (coms portNum : UInt16) (dnsServer : Server) (m : Mem)
    (tr : List (Event platform.interface)) :
    (∀ code, Traces (requestHosts coms portNum) tr code → code ≠ 0 →
      (Untouched coms m (memAfter m tr) ↔ Refetched coms m tr)) ∧
    (Traces (updateAndOnline dnsServer) tr 1 →
      (Untouched dnsServer.tcpPortNum m (memAfter m tr) ↔ Refetched dnsServer.tcpPortNum m tr)) := by
  constructor
  · intro code traced failed
    obtain ⟨f, fetched, left⟩ := requestHosts_fetches traced failed m none
    exact untouched_iff fetched left
  · intro traced
    exact updateAndOnline_untouched_iff traced m

def oneHost : Mem :=
  (startMem .roundRobin).setComs 1 { emptyComs 0 with ipHash := AList.insert [97] [49] ∅ }

/-- A peer that fails at once. -/
def refusal : List (Event platform.interface) :=
  [⟨.act (.clear 1), ()⟩, ⟨.connect 2, ⟨0, .client⟩⟩, ⟨.send ⟨0, .client⟩ [1], false⟩]

theorem refusal_traces : Traces (requestHosts 1 2) refusal 1 := .call (.call (.call .ret))

/-- A router that knows of no peer. -/
def lonely : List (Event platform.interface) :=
  [⟨.connect routerTcpPortNum, ⟨0, .client⟩⟩, ⟨.recv ⟨0, .client⟩ 1, some [0]⟩, ⟨.close ⟨0, .client⟩, ()⟩]

theorem lonely_traces (dnsServer : Server) : Traces (updateAndOnline dnsServer) lonely 1 :=
  .call (.call (.call .ret))

theorem failed_transfer_one_host :
    (Untouched 1 oneHost (memAfter oneHost refusal) ↔ Refetched 1 oneHost refusal) ∧
      (Untouched 129 oneHost (memAfter oneHost lonely) ↔ Refetched 129 oneHost lonely) :=
  ⟨(failed_transfer_iff 1 2 (createDnsServer [] 0 0 1) oneHost refusal).1 1 refusal_traces (by decide),
    (failed_transfer_iff 1 2 (createDnsServer [] 0 0 1) oneHost lonely).2 (lonely_traces _)⟩

/-- A refused request leaves an empty table. -/
theorem refusal_clears_table :
    Traces (requestHosts 1 2) refusal 1 ∧ ¬ Untouched 1 oneHost (memAfter oneHost refusal) := by
  refine ⟨refusal_traces, fun untouched => ?_⟩
  have lost := congrArg (Finmap.lookup [97]) untouched.table
  revert lost
  decide

end DnsServer
