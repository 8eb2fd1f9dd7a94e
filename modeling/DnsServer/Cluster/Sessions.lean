import DnsServer.Coms.Requests

/-! What a client leaves of its session with the router, for every result of its socket calls. -/
namespace DnsServer
open Process Program

/-- The socket that a call speaks on. -/
def usedSocket : platform.Call → Option Socket
  | .send s _ => some s
  | .recv s _ => some s
  | .close s => some s
  | _ => none

/-- The connections that a client opens. -/
def opens : List (Event platform.interface) → List Socket
  | [] => []
  | ⟨.connect _, s⟩ :: tr => s :: opens tr
  | _ :: tr => opens tr

/-- The reply of 8 bytes has been sent on the connection, or it has been closed. -/
def Finished (s : Socket) (tr : List (Event platform.interface)) : Prop :=
  (∃ bytes, bytes.length = 8 ∧ ⟨.send s bytes, true⟩ ∈ tr) ∨ ⟨.close s, ()⟩ ∈ tr

/-- A call that has a session with the router. -/
inductive SessionCall where
  | update (coms : UInt16) (u : Update) (ownPort : UInt16) (fail : Int8)
  | online (dnsServer : Server) (pointer : dnsServer.address.length = 8)

def SessionCall.program : SessionCall → Proc UInt8
  | .update coms u ownPort fail => updateHosts coms u.remove u.domain u.ip ownPort u.id fail
  | .online dnsServer _ => updateAndOnline dnsServer

/-- No acknowledgement to the router fails and, in an update, no receive from a peer. -/
def SessionCall.Meets (s : Socket) (tr : List (Event platform.interface)) : SessionCall → Prop
  | .update _ _ _ _ => ⟨.send s [1], false⟩ ∉ tr ∧ ∀ q, q ≠ s → ∀ len, ⟨.recv q len, none⟩ ∉ tr
  | .online _ _ => ⟨.send s [1], false⟩ ∉ tr

/-- An operation that is not on the router's rotation. -/
def Op.SparesRouter : Op → Prop
  | .setCurrServer _ => False
  | .addServer _ => False
  | .shiftOut _ => False
  | .shrinkServers => False
  | _ => True

/-- A receive on `s`, or an operation on the server's own memory. -/
def hears (s : Socket) : platform.Call → Prop
  | .recv q _ => q = s
  | .act op => op.SparesRouter
  | _ => False

/-- The same, or an acknowledgement on `s`. -/
def listens (s : Socket) : platform.Call → Prop
  | .send q bytes => q = s ∧ bytes = [1]
  | op => hears s op

/-- Whoever is spoken to has been connected to before. -/
def Own (tr : List (Event platform.interface)) : Prop :=
  ∀ event ∈ tr, ∀ s, usedSocket event.op = some s → s ∈ opens tr

section
variable {tr tr₁ : List (Event platform.interface)}

theorem Own.nil : Own [] := by
  rintro _ ⟨⟩

theorem opens_append (tr tr₁ : List (Event platform.interface)) : opens (tr ++ tr₁) = opens tr ++ opens tr₁ := by
  induction tr with
  | nil => rfl
  | cons event tr ih =>
    obtain ⟨op, r⟩ := event
    cases op with
    | connect port => exact congrArg (r :: ·) ih
    | _ => exact ih

theorem Own.append (first : Own tr) (second : Own tr₁) : Own (tr ++ tr₁) := by
  intro event member s used
  rw [opens_append]
  rcases List.mem_append.mp member with member | member
  · exact List.mem_append_left _ (first event member s used)
  · exact List.mem_append_right _ (second event member s used)

theorem listens_of_hears (op : platform.Call) (heard : hears s op) : listens s op := by
  cases op with
  | send q bytes => exact heard.elim
  | _ => exact heard

theorem recvUnchecked_hears (s : Socket) : (recvUnchecked s).Asks (hears s) :=
  recvUnchecked_asks (hears s) rfl trivial

theorem recievePort_hears (s : Socket) : (recievePort s).Asks (hears s) :=
  recievePort_asks (hears s) rfl rfl trivial

theorem recievePorts_listens (s : Socket) (n : Nat) (ports : List UInt16) :
    (recievePorts s n ports).Asks (listens s) :=
  recievePorts_asks (listens s) ⟨rfl, rfl⟩ rfl rfl trivial n ports

/-- The ports are missing when an acknowledgement has failed. -/
theorem recievePorts_traces (traced : Traces (recievePorts s n ports) tr result) :
    result = none ↔ ⟨.send s [1], false⟩ ∈ tr := by
  induction n generalizing ports tr with
  | zero =>
    obtain ⟨rfl, rfl⟩ := traces_ret_iff.mp traced
    simp
  | succ n ih =>
    simp only [recievePorts, send, request, bind_eq, pure_eq, call_bind, ret_bind, traces_call_iff] at traced
    obtain ⟨sent, _, rfl, traced⟩ := traced
    cases sent with
    | false =>
      obtain ⟨rfl, rfl⟩ := traces_ret_iff.mp traced
      simp
    | true =>
      obtain ⟨port, before, after, rfl, first, rest⟩ := Traces.split traced
      have silent : ⟨.send s [1], false⟩ ∉ before := (recievePort_hears s).traces first _
      rw [ih rest]
      simp [silent]

/-- What a program that only listens on `s` leaves behind. -/
structure Listened (s : Socket) (tr : List (Event platform.interface)) : Prop where
  finished : ¬ Finished s tr
  opens : DnsServer.opens tr = []
  recv : ∀ q, q ≠ s → ∀ len, ⟨.recv q len, none⟩ ∉ tr

theorem listens_spec {p : Proc α} (asks : p.Asks (listens s)) (traced : Traces p tr a) : Listened s tr := by
  have each := asks.traces traced
  constructor
  case finished =>
    rintro (⟨bytes, long, sent⟩ | closed)
    · obtain ⟨_, rfl⟩ := each _ sent
      cases long
    · exact each _ closed
  case opens =>
    clear traced
    induction tr with
    | nil => rfl
    | cons event tr ih =>
      obtain ⟨first, rest⟩ := List.forall_mem_cons.mp each
      obtain ⟨op, r⟩ := event
      cases op with
      | connect port => exact first.elim
      | _ => exact ih rest
  case recv =>
    intro q other len failed
    exact other (each _ failed)

/-- A socket call on `s`, or an operation on the server's own memory. -/
def speaks (s : Socket) : platform.Call → Prop
  | .send q _ => q = s
  | .recv q _ => q = s
  | .close q => q = s
  | .act op => op.SparesRouter
  | _ => False

theorem speaks_used (spoken : speaks s op) (used : usedSocket op = some q) : q = s := by
  cases op with
  | send | recv | close =>
    cases used
    exact spoken
  | _ => cases used

/-- What follows a connection and speaks on it only is on a connection of its own. -/
theorem own_connection (each : ∀ event ∈ tr, speaks s event.op) : Own (⟨.connect port, s⟩ :: tr) := by
  intro event member q used
  rcases List.mem_cons.mp member with rfl | member
  · cases used
  · rw [speaks_used (each event member) used]
    exact List.mem_cons_self

theorem own_contact (port : UInt16) (each : ∀ event ∈ tr, speaks s event.op) (own : Own tr₁) :
    Own (⟨.connect port, s⟩ :: (tr ++ tr₁)) :=
  (own_connection each).append own

theorem speaks_of_hears (op : platform.Call) (heard : hears s op) : speaks s op := by
  cases op with
  | recv | act => exact heard
  | _ => exact heard.elim

theorem speaks_of_fetching (op : platform.Call) (fetched : fetching coms s op) : speaks s op := by
  cases op with
  | send => exact fetched.1
  | recv | close => exact fetched
  | act op =>
    cases op with
    | insert | setVersionNum | garbage | fault => trivial
    | _ => exact fetched.elim
  | _ => exact fetched.elim

/-- A peer is asked for its hosts file on the connection that is opened to it. -/
theorem requestHosts_speaks (coms port : UInt16) :
    ∃ k, requestHosts coms port = @Program.call platform.interface _ (.act (.clear coms)) (fun _ =>
        @Program.call platform.interface _ (.connect port) k) ∧
      ∀ s, (k s).Asks (speaks s) := by
  obtain ⟨k, program, asks⟩ := requestHosts_asks coms port
  exact ⟨k, program, fun s => (asks s).mono speaks_of_fetching⟩

theorem requestHosts_own (traced : Traces (requestHosts coms port) tr code) : Own tr := by
  obtain ⟨k, program, speaks⟩ := requestHosts_speaks coms port
  rw [program] at traced
  obtain ⟨_, _, rfl, connects⟩ := traces_call_iff.mp traced
  obtain ⟨s, rest, rfl, spoken⟩ := traces_call_iff.mp connects
  have talk : Own (⟨.connect port, s⟩ :: rest) := own_connection ((speaks s).traces spoken)
  intro event member q used
  rcases List.mem_cons.mp member with rfl | member
  · cases used
  · exact talk event member q used

theorem requestAny_own (traced : Traces (requestAny coms ports) tr found) : Own tr := by
  induction ports generalizing tr with
  | nil =>
    obtain ⟨_, rfl⟩ := traces_ret_iff.mp traced
    exact .nil
  | cons port ports ih =>
    obtain ⟨code, before, after, rfl, first, rest⟩ := Traces.split traced
    have own := requestHosts_own first
    split at rest
    · obtain ⟨_, rfl⟩ := traces_ret_iff.mp rest
      rw [List.append_nil]
      exact own
    · exact own.append (ih rest)

/-- A receive that fails. -/
def failedRecv : Event platform.interface → Bool
  | ⟨.recv _ _, none⟩ => true
  | _ => false

theorem any_failedRecv : tr.any failedRecv = true ↔ ∃ q len, ⟨.recv q len, none⟩ ∈ tr := by
  rw [List.any_eq_true]
  constructor
  · rintro ⟨⟨op, r⟩, member, failed⟩
    cases op with
    | recv q len =>
      cases r with
      | none => exact ⟨q, len, member⟩
      | some bytes => cases failed
    | _ => cases failed
  · rintro ⟨q, len, member⟩
    exact ⟨_, member, rfl⟩

theorem recvByte_traces (traced : Traces (recvByte s) tr result) :
    (∀ event ∈ tr, hears s event.op) ∧ result.isNone = tr.any failedRecv := by
  simp only [recvByte, garbageByte, recv, act, request, bind_eq, pure_eq, call_bind, ret_bind] at traced
  constructor
  · refine Asks.traces (.call ?_ fun got => ?_) traced
    · rfl
    split
    · trivial
    · trivial
    · exact .call trivial fun _ => trivial
  · obtain ⟨got, rest, rfl, ends⟩ := traces_call_iff.mp traced
    split at ends
    · obtain ⟨rfl, rfl⟩ := traces_ret_iff.mp ends
      rfl
    · obtain ⟨rfl, rfl⟩ := traces_ret_iff.mp ends
      rfl
    · obtain ⟨_, _, rfl, done⟩ := traces_call_iff.mp ends
      obtain ⟨rfl, rfl⟩ := traces_ret_iff.mp done
      rfl

/-- The contacts are made on connections of their own, and end at one whose receive fails. -/
theorem contactPeers_traces (traced : Traces (contactPeers u ownPort fail i ports someStale someFresh) tr result) :
    Own tr ∧ result.isNone = tr.any failedRecv := by
  induction ports generalizing i someStale someFresh tr with
  | nil =>
    obtain ⟨rfl, rfl⟩ := traces_ret_iff.mp traced
    exact ⟨.nil, rfl⟩
  | cons port ports ih =>
    unfold contactPeers at traced
    split at traced
    · exact ih traced
    split at traced
    · exact ih traced
    simp only [connectToTcp, send, recv, close, request, bind_eq, pure_eq, call_bind, ret_bind] at traced
    obtain ⟨q, _, rfl, spoken⟩ := traces_call_iff.mp traced
    obtain ⟨sent, _, rfl, heard⟩ := traces_call_iff.mp spoken
    obtain ⟨ack, hearing, after, rfl, first, rest⟩ := Traces.split heard
    obtain ⟨hears, failed⟩ := recvByte_traces first
    have greeted : ∀ event ∈ (⟨.send q [2], sent⟩ : Event platform.interface) :: hearing,
        speaks q event.op := by
      intro event member
      rcases List.mem_cons.mp member with rfl | member
      · rfl
      · exact speaks_of_hears _ (hears event member)
    have closed : ∀ event ∈ [(⟨.close q, ()⟩ : Event platform.interface)], speaks q event.op := by
      rintro _ (_ | ⟨_, ⟨⟩⟩)
      rfl
    have begins : ∀ after, List.any (⟨.connect port, q⟩ :: ⟨.send q [2], sent⟩ :: (hearing ++ after)) failedRecv =
        (ack.isNone || after.any failedRecv) := by
      intro after
      simp [failed, failedRecv]
    rw [begins]
    cases ack with
    | none =>
      obtain ⟨rfl, rfl⟩ := traces_ret_iff.mp rest
      rw [List.append_nil]
      exact ⟨own_connection greeted, rfl⟩
    | some ack =>
      simp only at rest
      split at rest
      · obtain ⟨_, _, rfl, later⟩ := traces_call_iff.mp rest
        obtain ⟨own, ends⟩ := ih later
        have whole := own_contact port (List.forall_mem_append.mpr ⟨greeted, closed⟩) own
        rw [ends]
        exact ⟨by simpa using whole, rfl⟩
      · obtain ⟨sent', _, rfl, waits⟩ := traces_call_iff.mp rest
        obtain ⟨got, _, rfl, later⟩ := traces_call_iff.mp waits
        have told : ∀ event ∈ [(⟨.send q u.text, sent'⟩ : Event platform.interface), ⟨.recv q 1, got⟩],
            speaks q event.op := by
          rintro _ (_ | ⟨_, _ | ⟨_, ⟨⟩⟩⟩)
          · rfl
          · rfl
        have both := List.forall_mem_append.mpr ⟨greeted, told⟩
        cases got with
        | none =>
          obtain ⟨rfl, rfl⟩ := traces_ret_iff.mp later
          exact ⟨own_connection both, rfl⟩
        | some bytes =>
          obtain ⟨_, _, rfl, later'⟩ := traces_call_iff.mp later
          obtain ⟨own, ends⟩ := ih later'
          have whole := own_contact port (List.forall_mem_append.mpr ⟨both, closed⟩) own
          rw [ends]
          exact ⟨by simpa using whole, rfl⟩

theorem not_finished_of_own (own : Own tr) (fresh : s ∉ opens tr) : ¬ Finished s tr := by
  rintro (⟨bytes, _, sent⟩ | closed)
  · exact fresh (own _ sent s rfl)
  · exact fresh (own _ closed s rfl)

theorem finished_append : Finished s (tr ++ tr₁) ↔ Finished s tr ∨ Finished s tr₁ := by
  simp only [Finished, List.mem_append, and_or_left, exists_or]
  rw [or_or_or_comm]

/-- A message of 8 bytes, a close, or no socket call. -/
def replies : platform.Call → Prop
  | .send _ bytes => bytes.length = 8
  | .close _ => True
  | .act _ => True
  | _ => False

/-- How a session that comes to its reply ends. -/
theorem reply_traces {bytes : Bytes} {code : UInt8} (long : bytes.length = 8) (traced : Traces (do
      let _ ← send s bytes
      close s
      return code) tr code₁) :
    ⟨.close s, ()⟩ ∈ tr ∧ ∀ event ∈ tr, replies event.op := by
  simp only [send, close, request, bind_eq, pure_eq, call_bind, ret_bind] at traced
  constructor
  · obtain ⟨_, _, rfl, closing⟩ := traces_call_iff.mp traced
    obtain ⟨_, _, rfl, _⟩ := traces_call_iff.mp closing
    simp
  · refine Asks.traces ?_ traced
    exact .call long fun _ => .call trivial fun _ => trivial

theorem finished_cons_act {op : Op} {r : op.Reply} : Finished s (⟨.act op, r⟩ :: tr) ↔ Finished s tr := by
  simp [Finished]

/-- Both clients begin a session with the list of the ports. -/
theorem opening_traces {k : Option (List UInt16) → Proc α} (traced : Traces
      ((recvUnchecked s).bind fun portCnt => (recievePorts s portCnt.toNat []).bind k) tr a) :
    ∃ got opening rest, tr = opening ++ rest ∧ Traces (k got) rest a ∧ Listened s opening ∧
      (got = none ↔ ⟨.send s [1], false⟩ ∈ opening) := by
  obtain ⟨portCnt, count, _, rfl, counted, session⟩ := Traces.split traced
  obtain ⟨got, listing, rest, rfl, listed, session⟩ := Traces.split session
  have both : Traces ((recvUnchecked s).bind fun portCnt => recievePorts s portCnt.toNat [])
      (count ++ listing) got := counted.bind listed
  have silent : ⟨.send s [1], false⟩ ∉ count := (recvUnchecked_hears s).traces counted _
  refine ⟨got, count ++ listing, rest, (List.append_assoc ..).symm, session, ?_, ?_⟩
  · exact listens_spec (((recvUnchecked_hears s).mono listens_of_hears).bind fun portCnt =>
      recievePorts_listens s _ _) both
  · rw [recievePorts_traces listed, List.mem_append]
    exact (or_iff_right silent).symm

theorem updateHosts_finished {u : Update} (traced : Traces
      (updateHosts coms u.remove u.domain u.ip ownPort u.id fail) (⟨.connect routerTcpPortNum, s⟩ :: tr) code)
    (fresh : s ∉ opens tr) :
    Finished s tr ↔ ⟨.send s [1], false⟩ ∉ tr ∧ ∀ q, q ≠ s → ∀ len, ⟨.recv q len, none⟩ ∉ tr := by
  unfold updateHosts at traced
  split at traced
  · obtain ⟨_, none⟩ := traces_ret_iff.mp traced
    cases none
  simp only [connectToTcp, act, request, bind_eq, pure_eq, call_bind, ret_bind] at traced
  obtain ⟨_, _, same, session⟩ := traces_call_iff.mp traced
  cases same
  obtain ⟨got, opening, _, rfl, listed, listened, acks⟩ := opening_traces session
  cases got with
  | none =>
    obtain ⟨_, rfl⟩ := traces_ret_iff.mp listed
    rw [List.append_nil]
    exact iff_of_false listened.finished fun meets => meets.1 (acks.mp rfl)
  | some ports =>
    obtain ⟨versionNum, _, rfl, contacting⟩ := traces_call_iff.mp listed
    obtain ⟨flags, contacts, tail, rfl, contacted, ending⟩ := Traces.split contacting
    obtain ⟨own, ends⟩ := contactPeers_traces contacted
    simp only [opens_append, opens, List.mem_append, not_or] at fresh
    have away := not_finished_of_own own fresh.2.1
    cases flags with
    | none =>
      obtain ⟨_, rfl⟩ := traces_ret_iff.mp ending
      apply iff_of_false
      · rw [finished_append, finished_cons_act, List.append_nil]
        exact not_or.mpr ⟨listened.finished, away⟩
      · rintro ⟨_, noFailure⟩
        obtain ⟨q, len, failed⟩ := any_failedRecv.mp ends.symm
        have other : q ≠ s := by
          rintro rfl
          exact fresh.2.1 (own _ failed q rfl)
        exact noFailure q other len (by simp [failed])
    | some flags =>
      have replied : ⟨.close s, ()⟩ ∈ tail ∧ ∀ event ∈ tail, replies event.op := by
        simp only at ending
        split at ending
        · obtain ⟨_, updating, reply, rfl, updated, ending⟩ := Traces.split ending
          obtain ⟨closed, all⟩ := reply_traces rfl ending
          have quiet := (actuallyUpdate_asks replies (fun _ => trivial) ..).traces updated
          exact ⟨List.mem_append_right _ closed, List.forall_mem_append.mpr ⟨quiet, all⟩⟩
        · exact reply_traces rfl ending
      obtain ⟨closed, all⟩ := replied
      apply iff_of_true
      · right
        simp [closed]
      · constructor
        · intro failed
          simp only [List.mem_append, List.mem_cons] at failed
          rcases failed with failed | failed | failed | failed
          · cases acks.mpr failed
          · cases failed
          · exact fresh.2.1 (own _ failed s rfl)
          · cases all _ failed
        · intro q other len failed
          simp only [List.mem_append, List.mem_cons] at failed
          rcases failed with failed | failed | failed | failed
          · exact listened.recv q other len failed
          · cases failed
          · have any := any_failedRecv.mpr ⟨q, len, failed⟩
            cases ends.trans any
          · exact all _ failed

theorem updateAndOnline_finished (long : dnsServer.address.length = 8)
    (traced : Traces (updateAndOnline dnsServer) (⟨.connect routerTcpPortNum, s⟩ :: tr) code)
    (fresh : s ∉ opens tr) : Finished s tr ↔ ⟨.send s [1], false⟩ ∉ tr := by
  simp only [updateAndOnline, connectToTcp, request, bind_eq, pure_eq, call_bind, ret_bind] at traced
  obtain ⟨_, _, same, session⟩ := traces_call_iff.mp traced
  cases same
  obtain ⟨got, opening, _, rfl, listed, listened, acks⟩ := opening_traces session
  cases got with
  | none =>
    obtain ⟨_, rfl⟩ := traces_ret_iff.mp listed
    rw [List.append_nil]
    exact iff_of_false listened.finished fun meets => meets (acks.mp rfl)
  | some ports =>
    obtain ⟨found, asking, tail, rfl, asked, ending⟩ := Traces.split listed
    have own := requestAny_own asked
    simp only [opens_append, List.mem_append, not_or] at fresh
    have replied : ⟨.close s, ()⟩ ∈ tail ∧ ∀ event ∈ tail, replies event.op := by
      split at ending
      · simp only [close, request, call_bind, ret_bind] at ending
        obtain ⟨_, _, rfl, done⟩ := traces_call_iff.mp ending
        obtain ⟨_, rfl⟩ := traces_ret_iff.mp done
        constructor
        · simp
        · rintro _ (_ | ⟨_, ⟨⟩⟩)
          trivial
      · exact reply_traces long ending
    obtain ⟨closed, all⟩ := replied
    apply iff_of_true
    · right
      simp [closed]
    · intro failed
      simp only [List.mem_append] at failed
      rcases failed with failed | failed | failed
      · cases acks.mpr failed
      · exact fresh.2.1 (own _ failed s rfl)
      · cases all _ failed

/-- A client that has connected to the router leaves its session replied to or closed exactly when
no acknowledgement to the router fails and, in an update, no receive from a peer. -/
theorem session_finished_iff (c : SessionCall)
    (traced : Traces c.program (⟨.connect routerTcpPortNum, s⟩ :: tr) code) (fresh : s ∉ opens tr) :
    Finished s tr ↔ c.Meets s tr := by
  cases c with
  | update coms u ownPort fail => exact updateHosts_finished traced fresh
  | online dnsServer pointer => exact updateAndOnline_finished pointer traced fresh

end

/-- The session and the contact of a server that is alone with one peer. -/
def toRouter : Socket := ⟨0, .client⟩
def toPeer : Socket := ⟨1, .client⟩

def callOnPair : SessionCall := .update 1 (addNewDomain 1) 1 5

def onlineOnPair : SessionCall :=
  .online ⟨List.replicate 8 1, 1, 1053, 1, 1050, routerPortNum⟩ List.length_replicate

/-- The peer takes the update, and supplies an empty hosts file. -/
theorem session_finished_pair :
    (∃ tr, Traces callOnPair.program (⟨.connect routerTcpPortNum, toRouter⟩ :: tr) 0 ∧
      (Finished toRouter tr ↔ callOnPair.Meets toRouter tr)) ∧
    ∃ tr, Traces onlineOnPair.program (⟨.connect routerTcpPortNum, toRouter⟩ :: tr) 0 ∧
      (Finished toRouter tr ↔ onlineOnPair.Meets toRouter tr) := by
  let listed : List (Event platform.interface) := [⟨.recv toRouter 1, some [1]⟩, ⟨.send toRouter [1], true⟩,
    ⟨.recv toRouter 2, some [2, 0]⟩]
  let updates : List (Event platform.interface) := listed ++ [⟨.act (.versionNum 1), 0⟩, ⟨.connect 2, toPeer⟩,
    ⟨.send toPeer [2], true⟩, ⟨.recv toPeer 1, some [0]⟩, ⟨.send toPeer (addNewDomain 1).text, true⟩,
    ⟨.recv toPeer 1, some []⟩, ⟨.close toPeer, ()⟩, ⟨.act (.setVersionNum 1 1), ()⟩,
    ⟨.act (.insert 1 (addNewDomain 1).domain (addNewDomain 1).ip), ()⟩, ⟨.act (.writeHostsFile 1), ()⟩,
    ⟨.send toRouter [0, 0, 0, 0, 0, 0, 0, 0], true⟩, ⟨.close toRouter, ()⟩]
  let onlines : List (Event platform.interface) := listed ++ [⟨.act (.clear 1), ()⟩, ⟨.connect 2, toPeer⟩,
    ⟨.send toPeer [1], true⟩, ⟨.recv toPeer 1, some [0]⟩,
    ⟨.act (.garbage textSize), ⟨List.replicate textSize 0, List.length_replicate⟩⟩, ⟨.send toPeer [1], true⟩,
    ⟨.recv toPeer 1, some [0]⟩, ⟨.act (.setVersionNum 1 0), ()⟩, ⟨.close toPeer, ()⟩,
    ⟨.send toRouter (List.replicate 8 1), true⟩, ⟨.close toRouter, ()⟩]
  have updated : Traces callOnPair.program (⟨.connect routerTcpPortNum, toRouter⟩ :: updates) 0 :=
    .call (.call (.call (.call (.call (.call (.call (.call (.call (.call (.call (.call (.call (.call (.call
      (.call .ret)))))))))))))))
  have onlined : Traces onlineOnPair.program (⟨.connect routerTcpPortNum, toRouter⟩ :: onlines) 0 :=
    .call (.call (.call (.call (.call (.call (.call (.call (.call (.call (.call (.call (.call (.call
      (.call .ret))))))))))))))
  exact ⟨⟨updates, updated, session_finished_iff callOnPair updated (by decide)⟩,
    onlines, onlined, session_finished_iff onlineOnPair onlined (by decide)⟩

/-- The receive of the peer's version fails: the call returns, and its session stays open. -/
theorem peer_failure_dangles :
    ∃ tr, Traces callOnPair.program (⟨.connect routerTcpPortNum, toRouter⟩ :: tr) 1 ∧
      toRouter ∉ opens tr ∧ ¬ Finished toRouter tr := by
  let tr : List (Event platform.interface) := [⟨.recv toRouter 1, some [1]⟩, ⟨.send toRouter [1], true⟩,
    ⟨.recv toRouter 2, some [2, 0]⟩, ⟨.act (.versionNum 1), 0⟩, ⟨.connect 2, toPeer⟩,
    ⟨.send toPeer [2], true⟩, ⟨.recv toPeer 1, none⟩]
  have traced : Traces callOnPair.program (⟨.connect routerTcpPortNum, toRouter⟩ :: tr) 1 :=
    .call (.call (.call (.call (.call (.call (.call (.call .ret)))))))
  refine ⟨tr, traced, by decide, ?_⟩
  rintro (⟨bytes, long, sent⟩ | closed)
  · simp [tr, toRouter, toPeer] at sent
    subst sent
    cases long
  · simp [tr] at closed

end DnsServer
