import DnsServer.Coms.Fetching
import DnsServer.Coms.HostsFile

/-! What a server's own hosts file says of its table after the operations that change it. -/
namespace DnsServer
open Process Program Memory

/-- An operation that changes the table of a server. -/
inductive TableOp where
  | recieved (socket : Socket)
  | initiated (u : Update) (ownPort : UInt16) (fail : Int8)
  | transfer (portNum : UInt16)

def TableOp.program (coms : UInt16) : TableOp → Proc UInt8
  | .recieved socket => recieveUpdate coms socket
  | .initiated u ownPort fail => updateHosts coms u.remove u.domain u.ip ownPort u.id fail
  | .transfer portNum => requestHosts coms portNum

/-- An operation from its start to its end, with whatever it is answered. -/
structure TableTurn (coms : UInt16) where
  op : TableOp
  events : List (Event platform.interface)
  code : UInt8
  traced : Traces (op.program coms) events code

/-- What the buffer of a text holds. -/
def held (buffer : Bytes) : Event platform.interface → Bytes
  | ⟨.act (.garbage n), bytes⟩ => if n = textSize then bytes.val else buffer
  | ⟨.recv _ len, some bytes⟩ => if len = textSize then bytes ++ buffer.drop bytes.length else buffer
  | _ => buffer

/-- What an operation has for the table: an update, or the entries of another table. -/
inductive Given where
  | update (u : Update)
  | entries (entries : List (Sigma fun _ : Bytes => Bytes))

/-- The update that the operation was called with or that it was sent, or the entries that it was sent. -/
def TableTurn.given (turn : TableTurn coms) : Option Given :=
  match turn.op with
  | .recieved _ => (decodeUpdate (turn.events.foldl held [])).map .update
  | .initiated u _ _ => some (.update u)
  | .transfer _ => (turn.events.foldl fetch none).map fun f => .entries f.entries

def Given.apply (t : Table) : Given → Table
  | .update u => u.apply t
  | .entries fetched => copyEntries ∅ fetched

/-- What is then in the server's own file, by what was in it and the table as it is then. -/
def Given.file (file : Bytes) (hash : Hash) : Given → Bytes
  | .update _ => hostsText hash
  | .entries _ => file

/-- `P` holds of every operation that returns 0, with the memory before it. -/
def EachSuccess (P : Mem → TableTurn coms → Prop) : Mem → List (TableTurn coms) → Prop
  | _, [] => True
  | m, turn :: turns => (turn.code = 0 → P m turn) ∧ EachSuccess P (memAfter m turn.events) turns

/-- Parsing the server's own file after the operation gives its table. -/
def Reflected (files : Files) (m : Mem) (turn : TableTurn coms) : Prop :=
  let c := (memAfter m turn.events).coms coms
  Lists (parseHostsFile (Function.update files (hostsFilename c.id) c.hostsFile) (hostsFilename c.id)) c.table

/-- Before the operation `hosts.txt` lists the table that it is to make. -/
def Foreseen (files : Files) (m : Mem) (turn : TableTurn coms) : Prop :=
  ∀ given ∈ turn.given, Lists (parseTranslations (files hostsTxt)) (given.apply (m.coms coms).table)

theorem hostsFilename_other (id : UInt8) : hostsFilename id ≠ hostsTxt := by
  intro same
  have none : decimal id.toNat = [] := by
    have sizes := congrArg List.length same
    simp only [hostsFilename, hostsTxt, List.length_append] at sizes
    exact List.eq_nil_of_length_eq_zero (by omega)
  exact Nat.toDigits_ne_nil (List.map_eq_nil_iff.mp none)

/-- The loop of a text leaves the memory alone, and ends with the text in its buffer. -/
theorem recieveText_held {tr : List (Event platform.interface)}
    (traced : Traces (.loop (buffer, count) (recieveChunk socket stopOnClose) .ret) tr result) (m : Mem) :
    memAfter m tr = m ∧ ∀ text, result = some text → tr.foldl held buffer = text := by
  induction tr generalizing buffer count with
  | nil =>
    have turn := traces_loop_iff.mp traced
    simp only [unroll, recieveChunk, recv, request, bind_eq, pure_eq, call_bind, ret_bind, traces_call_iff] at turn
    obtain ⟨_, _, impossible, _⟩ := turn
    cases impossible
  | cons event tr ih =>
    have turn := traces_loop_iff.mp traced
    simp only [unroll, recieveChunk, recv, request, bind_eq, pure_eq, call_bind, ret_bind, traces_call_iff] at turn
    obtain ⟨outcome, rest, same, turn⟩ := turn
    cases same
    cases outcome with
    | none =>
      obtain ⟨rfl, rfl⟩ := traces_ret_iff.mp turn
      exact ⟨rfl, by rintro _ ⟨⟩⟩
    | some bytes =>
      have hears : held buffer ⟨.recv socket textSize, some bytes⟩ = bytes ++ buffer.drop bytes.length := by
        simp [held]
      rw [List.foldl_cons, hears]
      change memAfter m tr = m ∧ _
      simp only at turn
      split at turn
      · obtain ⟨rfl, rfl⟩ := traces_ret_iff.mp turn
        exact ⟨rfl, by rintro _ ⟨⟩⟩
      · split at turn
        · rw [fault_bind] at turn
          exact absurd turn not_traces_fault
        · split at turn
          · obtain ⟨rfl, rfl⟩ := traces_ret_iff.mp turn
            refine ⟨rfl, ?_⟩
            rintro _ ⟨⟩
            rfl
          · exact ih turn

/-- A call that leaves the memory alone. -/
def still : platform.Call → Prop
  | .act (.garbage _) => True
  | .act (.versionNum _) => True
  | .act _ => False
  | _ => True

theorem stored_still (m : Mem) (event : Event platform.interface) (asked : still event.op) : stored m event = m := by
  obtain ⟨op, r⟩ := event
  cases op with
  | act op =>
    cases op with
    | garbage n => rfl
    | versionNum coms => rfl
    | _ => exact asked.elim
  | _ => rfl

theorem memAfter_still {tr : List (Event platform.interface)} (asks : ∀ event ∈ tr, still event.op) (m : Mem) :
    memAfter m tr = m :=
  memAfter_keeps (f := id) stored_still asks m

theorem actuallyUpdate_stores {u : Update} {tr : List (Event platform.interface)}
    (traced : Traces (actuallyUpdate coms u.remove u.domain u.ip u.id) tr code) (m : Mem) :
    (memAfter m tr).coms coms = (m.coms coms).actuallyUpdate u ∧ ∀ buffer, tr.foldl held buffer = buffer := by
  obtain ⟨remove, domain, ip, id⟩ := u
  simp only [actuallyUpdate, act, request, bind_eq, pure_eq, call_bind, ret_bind] at traced
  obtain ⟨_, _, rfl, versioned⟩ := traces_call_iff.mp traced
  cases remove with
  | true =>
    obtain ⟨_, _, rfl, erased⟩ := traces_call_iff.mp versioned
    obtain ⟨_, _, rfl, written⟩ := traces_call_iff.mp erased
    obtain ⟨_, rfl⟩ := traces_ret_iff.mp written
    refine ⟨?_, fun _ => rfl⟩
    simp [memAfter, stored, Mem.perform, Coms.actuallyUpdate]
  | false =>
    obtain ⟨_, _, rfl, inserted⟩ := traces_call_iff.mp versioned
    obtain ⟨_, _, rfl, written⟩ := traces_call_iff.mp inserted
    obtain ⟨_, rfl⟩ := traces_ret_iff.mp written
    refine ⟨?_, fun _ => rfl⟩
    simp [memAfter, stored, Mem.perform, Coms.actuallyUpdate]

theorem recieveUpdate_stores {tr : List (Event platform.interface)} (traced : Traces (recieveUpdate coms socket) tr 0)
    (m : Mem) : ∃ u, decodeUpdate (tr.foldl held []) = some u ∧
      (memAfter m tr).coms coms = (m.coms coms).actuallyUpdate u := by
  simp only [recieveUpdate, send, act, close, request, bind_eq, pure_eq, call_bind, ret_bind] at traced
  obtain ⟨versionNum, _, rfl, acknowledging⟩ := traces_call_iff.mp traced
  obtain ⟨sent, rest, rfl, asked⟩ := traces_call_iff.mp acknowledging
  change ∃ u, decodeUpdate (rest.foldl held []) = some u ∧
    (memAfter m rest).coms coms = (m.coms coms).actuallyUpdate u
  cases sent with
  | false =>
    obtain ⟨impossible, _⟩ := traces_ret_iff.mp asked
    cases impossible
  | true =>
    obtain ⟨buffer, _, rfl, hearing⟩ := traces_call_iff.mp asked
    obtain ⟨got, hears, updating, rfl, heard, ends⟩ := Traces.split hearing
    obtain ⟨same, holds⟩ := recieveText_held heard m
    cases got with
    | none =>
      obtain ⟨_, _, rfl, closed⟩ := traces_call_iff.mp ends
      obtain ⟨impossible, _⟩ := traces_ret_iff.mp closed
      cases impossible
    | some text =>
      simp only at ends
      split at ends
      · exact absurd ends not_traces_fault
      · next u decoded =>
        obtain ⟨updated, aside⟩ := actuallyUpdate_stores ends m
        have filled : held [] ⟨.act (.garbage textSize), buffer⟩ = buffer.val := by simp [held]
        refine ⟨u, ?_, ?_⟩
        · rw [List.foldl_cons, filled, List.foldl_append, holds text rfl, aside, decoded]
        · change (memAfter m (hears ++ updating)).coms coms = _
          rw [memAfter_append, same, updated]

/-- A server that has the update's version already does not report success. -/
theorem updateCode_fresh (someStale someFresh : Bool) : updateCode false someStale someFresh ≠ 0 := by
  cases someStale <;> cases someFresh <;> decide

theorem updateHosts_stores {u : Update} {tr : List (Event platform.interface)}
    (traced : Traces (updateHosts coms u.remove u.domain u.ip ownPort u.id fail) tr 0) (m : Mem) :
    (memAfter m tr).coms coms = (m.coms coms).actuallyUpdate u := by
  unfold updateHosts at traced
  split at traced
  · obtain ⟨impossible, _⟩ := traces_ret_iff.mp traced
    cases impossible
  simp only [connectToTcp, send, close, act, request, bind_eq, pure_eq, call_bind, ret_bind] at traced
  obtain ⟨socket, _, rfl, session⟩ := traces_call_iff.mp traced
  obtain ⟨portCnt, counting, _, rfl, counted, asking⟩ := Traces.split session
  obtain ⟨got, listing, _, rfl, listed, contacting⟩ := Traces.split asking
  cases got with
  | none =>
    obtain ⟨impossible, _⟩ := traces_ret_iff.mp contacting
    cases impossible
  | some ports =>
    obtain ⟨versionNum, _, rfl, spoken⟩ := traces_call_iff.mp contacting
    obtain ⟨flags, contacts, _, rfl, contacted, ending⟩ := Traces.split spoken
    cases flags with
    | none =>
      obtain ⟨impossible, _⟩ := traces_ret_iff.mp ending
      cases impossible
    | some flags =>
      obtain ⟨someStale, someFresh⟩ := flags
      simp only at ending
      split at ending
      · obtain ⟨_, updating, _, rfl, updated, replying⟩ := Traces.split ending
        obtain ⟨_, _, rfl, closing⟩ := traces_call_iff.mp replying
        obtain ⟨_, _, rfl, closed⟩ := traces_call_iff.mp closing
        obtain ⟨_, rfl⟩ := traces_ret_iff.mp closed
        have counts : memAfter m counting = m :=
          memAfter_still ((recvUnchecked_asks still trivial trivial).traces counted) m
        have lists : memAfter m listing = m :=
          memAfter_still ((recievePorts_asks still trivial trivial trivial trivial _ _).traces listed) m
        have speaks : memAfter m contacts = m := by
          refine memAfter_still (Asks.traces ?_ contacted) m
          exact contactPeers_asks still u (fun _ => trivial) (fun _ => trivial) (fun _ => trivial) (fun _ => trivial)
            trivial (fun _ => trivial) ownPort fail 0 ports false false
        change (memAfter m (counting ++ _)).coms coms = _
        rw [memAfter_append, counts, memAfter_append, lists]
        change (memAfter m (contacts ++ _)).coms coms = _
        rw [memAfter_append, speaks, memAfter_append, ← (actuallyUpdate_stores updated m).1]
        rfl
      · next fresh =>
        obtain ⟨_, _, rfl, closing⟩ := traces_call_iff.mp ending
        obtain ⟨_, _, rfl, closed⟩ := traces_call_iff.mp closing
        obtain ⟨done, _⟩ := traces_ret_iff.mp closed
        rw [Bool.not_eq_true] at fresh
        rw [fresh] at done
        exact absurd done.symm (updateCode_fresh someStale someFresh)

/-- A call that writes no hosts file. -/
def unwritten : platform.Call → Prop
  | .act (.writeHostsFile _) => False
  | _ => True

theorem stored_unwritten (coms : UInt16) (m : Mem) (event : Event platform.interface) (asked : unwritten event.op) :
    ((stored m event).coms coms).hostsFile = (m.coms coms).hostsFile := by
  have one : ∀ (c : Coms) (p : UInt16), c.hostsFile = (m.coms p).hostsFile →
      ((m.setComs p c).coms coms).hostsFile = (m.coms coms).hostsFile := by
    intro c p same
    by_cases own : coms = p
    · rw [own, setComs_same, same]
    · rw [setComs_other m own]
  obtain ⟨op, r⟩ := event
  cases op with
  | act op =>
    cases op with
    | setVersionNum | clear | insert | erase => exact one _ _ rfl
    | writeHostsFile => exact asked.elim
    | addServer dns =>
      simp only [stored, Mem.perform]
      cases m.router.addServer dns <;> rfl
    | shiftOut dnsId =>
      simp only [stored, Mem.perform]
      cases m.router.shiftOut dnsId <;> rfl
    | _ => rfl
  | _ => rfl

theorem unwritten_of_fetching (op : platform.Call) (fetched : fetching coms s op) : unwritten op := by
  cases op with
  | act op =>
    cases op with
    | writeHostsFile => exact fetched.elim
    | _ => trivial
  | _ => trivial

/-- A transfer fills the table and leaves the file. -/
theorem requestHosts_leaves_file {tr : List (Event platform.interface)}
    (traced : Traces (requestHosts coms portNum) tr code) (m : Mem) :
    ((memAfter m tr).coms coms).hostsFile = (m.coms coms).hostsFile := by
  obtain ⟨k, program, asks⟩ := requestHosts_asks coms portNum
  rw [program] at traced
  have requests : ∀ event ∈ tr, unwritten event.op := by
    refine Asks.traces ?_ traced
    exact .call trivial fun _ => .call trivial fun s => (asks s).mono unwritten_of_fetching
  exact memAfter_keeps (f := fun m => (m.coms coms).hostsFile) (stored_unwritten coms) requests m

theorem given_updated {c c₁ : Coms} (updated : c₁ = c.actuallyUpdate u) :
    c₁.table = Given.apply c.table (.update u) ∧ c₁.hostsFile = Given.file c.hostsFile c₁.ipHash (.update u) := by
  rw [updated, actuallyUpdate_table]
  exact ⟨rfl, rfl⟩

/-- What an operation that returns 0 leaves of the table and the file. -/
theorem TableTurn.success (turn : TableTurn coms) (done : turn.code = 0) (m : Mem) :
    ∃ given, turn.given = some given ∧
      ((memAfter m turn.events).coms coms).table = given.apply (m.coms coms).table ∧
      ((memAfter m turn.events).coms coms).hostsFile =
        given.file (m.coms coms).hostsFile ((memAfter m turn.events).coms coms).ipHash := by
  obtain ⟨op, events, code, traced⟩ := turn
  obtain rfl : code = 0 := done
  cases op with
  | recieved socket =>
    obtain ⟨u, decoded, updated⟩ := recieveUpdate_stores traced m
    exact ⟨.update u, congrArg (Option.map Given.update) decoded, given_updated updated⟩
  | initiated u ownPort fail =>
    have updated := updateHosts_stores traced m
    exact ⟨.update u, rfl, given_updated updated⟩
  | transfer portNum =>
    obtain ⟨f, fetched, table, _⟩ := requestHosts_stores traced m none
    exact ⟨.entries f.entries, congrArg (Option.map fun f : Fetch => Given.entries f.entries) fetched, table,
      requestHosts_leaves_file traced m⟩

section
variable {P Q : Mem → TableTurn coms → Prop} {turns : List (TableTurn coms)}

theorem eachSuccess_of_forall (all : ∀ m (turn : TableTurn coms), turn.code = 0 → P m turn) (m : Mem)
    (turns : List (TableTurn coms)) : EachSuccess P m turns := by
  induction turns generalizing m with
  | nil => trivial
  | cons turn turns ih => exact ⟨all m turn, ih _⟩

theorem EachSuccess.imp (implies : ∀ m (turn : TableTurn coms), turn.code = 0 → P m turn → Q m turn)
    (each : EachSuccess P m turns) : EachSuccess Q m turns := by
  induction turns generalizing m with
  | nil => trivial
  | cons turn turns ih => exact ⟨fun done => implies m turn done (each.1 done), ih each.2⟩

theorem EachSuccess.congr (alike : EachSuccess (fun m turn => P m turn ↔ Q m turn) m turns) :
    EachSuccess P m turns ↔ EachSuccess Q m turns := by
  induction turns generalizing m with
  | nil => exact Iff.rfl
  | cons turn turns ih => exact and_congr (imp_congr_right alike.1) (ih alike.2)

end

theorem reflected_iff (files : Files) (turn : TableTurn coms) (done : turn.code = 0) (m : Mem) :
    Reflected files m turn ↔ Foreseen files m turn := by
  obtain ⟨given, known, table, _⟩ := turn.success done m
  rw [Reflected, Foreseen, known, parseHostsFile, Function.update_of_ne (hostsFilename_other _).symm, table]
  constructor
  · rintro lists _ ⟨⟩
    exact lists
  · exact fun lists => lists given rfl

/-- In every run of operations, the server's own file, when it is parsed under its name, gives the table after each
success if and only if `hosts.txt` lists the tables that the successful operations are to make. -/
theorem own_file_reflects_iff (files : Files) (coms : UInt16) (m : Mem) (turns : List (TableTurn coms)) :
    EachSuccess (Reflected files) m turns ↔ EachSuccess (Foreseen files) m turns :=
  (eachSuccess_of_forall (fun m turn done => reflected_iff files turn done m) m turns).congr

/-- An update that a server makes which is alone in the rotation. -/
def aloneUpdate : TableTurn 1 where
  op := .initiated (addNewDomain 1) 1 (-2)
  events := [⟨.connect routerTcpPortNum, ⟨0, .client⟩⟩, ⟨.recv ⟨0, .client⟩ 1, some [0]⟩, ⟨.act (.versionNum 1), (0 : UInt8)⟩,
    ⟨.act (.setVersionNum 1 1), ()⟩, ⟨.act (.insert 1 (addNewDomain 1).domain (addNewDomain 1).ip), ()⟩,
    ⟨.act (.writeHostsFile 1), ()⟩, ⟨.send ⟨0, .client⟩ [0, 0, 0, 0, 0, 0, 0, 0], true⟩, ⟨.close ⟨0, .client⟩, ()⟩]
  code := 0
  traced := .call (.call (.call (.call (.call (.call (.call (.call .ret)))))))

/-- A server that was started with an empty `hosts.txt`. -/
def newServer : Mem := (startMem .roundRobin).setComs 1 (emptyComs 1)

/-- The pair that the update has added and written is missing from what is read under the file's name. -/
theorem own_file_unread : createComs 1 true (fun _ => []) = some (emptyComs 1) ∧
    ¬ EachSuccess (Reflected fun _ => []) newServer [aloneUpdate] := by
  refine ⟨rfl, fun each => ?_⟩
  obtain ⟨translations, parsed, counts⟩ := each.1 rfl
  rw [parseHostsFile, Function.update_of_ne (hostsFilename_other _).symm] at parsed
  cases parsed
  have missing := counts (addNewDomain 1).domain (addNewDomain 1).ip
  revert missing
  decide

/-! The file as it stands, whoever reads it: an update writes it, a transfer does not. -/

/-- The text of the server's own file lists its table after the operation. -/
def UpToDate (m : Mem) (turn : TableTurn coms) : Prop :=
  let c := (memAfter m turn.events).coms coms
  Lists (parseTranslations c.hostsFile) c.table

def PlainTable (m : Mem) (turn : TableTurn coms) : Prop :=
  AllPlain ((memAfter m turn.events).coms coms).ipHash.entries

/-- If the operation is a transfer, the file lists what it fetches before it. -/
def Unsurprising (m : Mem) (turn : TableTurn coms) : Prop :=
  ∀ fetched, turn.given = some (.entries fetched) →
    Lists (parseTranslations (m.coms coms).hostsFile) (copyEntries ∅ fetched)

theorem upToDate_iff (turn : TableTurn coms) (done : turn.code = 0) (plain : PlainTable m turn) :
    UpToDate m turn ↔ Unsurprising m turn := by
  obtain ⟨given, known, table, file⟩ := turn.success done m
  cases given with
  | update u =>
    apply iff_of_true
    · rw [UpToDate, file]
      exact hostsText_lists plain
    · intro fetched transferred
      cases known.symm.trans transferred
  | entries fetched =>
    rw [UpToDate, file, table]
    constructor
    · intro lists fetched' transferred
      cases known.symm.trans transferred
      exact lists
    · exact fun unsurprising => unsurprising fetched known

/-- With names that can stand in a file, the server's own file is up to date after each success if and only if no
transfer fetches anything that it does not list already. -/
theorem own_file_written_iff {turns : List (TableTurn coms)} (plain : EachSuccess PlainTable m turns) :
    EachSuccess UpToDate m turns ↔ EachSuccess Unsurprising m turns :=
  (plain.imp fun _ turn done plain => upToDate_iff turn done plain).congr

end DnsServer
