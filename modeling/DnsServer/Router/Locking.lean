import DnsServer.Coms.Sequential
import DnsServer.Router.Deadlock

/-! The mutexes that the router's operations leave held, for every outcome of their socket calls. -/
namespace DnsServer
open Process Program Memory

/-- What the socket calls still to come return; every send of a packet returns `error`. -/
structure Outcomes where
  sends : List Bool
  recvs : List (Option Bytes)
  error : UInt8

def outcomesWorld (n : Outcomes) : World
  | .sendPacket _ _ => some n.error
  | _ => none

def outcomesNetwork : Network Outcomes
  | e, .accept _ => some (⟨0, .server⟩, e)
  | (m, n), .send _ _ =>
    match n.sends with
    | [] => none
    | sent :: sends => some (sent, m, { n with sends })
  | (m, n), .recv _ len =>
    match n.recvs with
    | [] => none
    | got :: recvs =>
      if got.all fun bytes => bytes.length ≤ len then some (got, m, { n with recvs }) else none
  | e, .close _ => some ((), e)
  | _, _ => none

structure Attempt where
  mem : Mem
  outcomes : Outcomes
  held : Lock → Bool

def Attempt.setLock (e : Attempt) (l : Lock) (held : Bool) : Attempt :=
  { e with held := Function.update e.held l held }

/-- Runs one operation of the router. A mutex that is held blocks whoever locks it. -/
def attempt : Handler platform.interface Attempt
  | e, .lock l => if e.held l then none else some ((), e.setLock l true)
  | e, .unlock l => some ((), e.setLock l false)
  | e, other =>
    (system outcomesWorld outcomesNetwork (e.mem, e.outcomes) other).map fun (reply, mem, outcomes) =>
      (reply, { e with mem, outcomes })

inductive RouterOp where
  | add (dns : Server)
  | remove (dnsId : UInt8)
  | forward (message : Bytes)
  | session

def RouterOp.program : RouterOp → Proc Unit
  | .add dns => do
    let _ ← addDnsServer dns
    return
  | .remove dnsId => do
    let _ ← removeServer dnsId
    return
  | .forward message => do
    let _ ← forwardRequest message
    return
  | .session => do
    let _ ← checkTcpConnections
    return

/-- The server to remove is there, some server is online to forward to, or no call fails while
the list of the ports is sent. -/
def RouterOp.Meets (e : Attempt) : RouterOp → Prop
  | .add _ => True
  | .remove dnsId => ∃ server ∈ e.mem.router.rotation, server.id = dnsId.toUInt16
  | .forward _ => e.mem.router.serverCnt ≠ 0
  | .session =>
    (∀ sent ∈ e.outcomes.sends.take (e.mem.router.serverCnt.toNat + 1), sent = true) ∧
      ∀ got ∈ e.outcomes.recvs.take e.mem.router.serverCnt.toNat, got.isSome

theorem setLock_back {e : Attempt} (free : e.held l = false) :
    ((e.setLock l true).setLock l false).held = e.held := by
  simp only [Attempt.setLock]
  rw [Function.update_idem, ← free, Function.update_eq_self]

theorem attempt_lock (asked : attempt e (.lock l) = some (u, e₁)) :
    e.held l = false ∧ e₁ = e.setLock l true := by
  simp only [attempt] at asked
  split at asked
  · cases asked
  · next free =>
    cases asked
    exact ⟨by simpa using free, rfl⟩

theorem attempt_act (asked : attempt e (.act op) = some (r, e₁)) :
    ∃ m, e.mem.perform (outcomesWorld e.outcomes) op = some (r, m) ∧ e₁ = { e with mem := m } := by
  simp only [attempt, system, Option.map_map, Option.map_eq_some_iff] at asked
  obtain ⟨⟨_, m⟩, performed, done⟩ := asked
  cases done
  exact ⟨m, performed, rfl⟩

theorem attempt_fault : ¬ Runs attempt (fault : Proc α) e a e₁ := by
  intro ran
  obtain ⟨_, _, asked, _⟩ := runs_call_iff.mp ran
  obtain ⟨_, performed, _⟩ := attempt_act asked
  cases performed

theorem addDnsServer_locks (ran : Runs attempt (addDnsServer dns) e code e₁) : e₁.held = e.held := by
  simp only [addDnsServer, lock, unlock, act, request, bind_eq, pure_eq, call_bind, ret_bind,
    runs_call_iff, runs_ret_iff] at ran
  obtain ⟨_, _, locked, _, _, added, _, _, unlocked, _, rfl⟩ := ran
  obtain ⟨free, rfl⟩ := attempt_lock locked
  obtain ⟨_, _, rfl⟩ := attempt_act added
  cases unlocked
  exact setLock_back free

theorem removeServer_locks (sized : e.mem.router.Sized)
    (ran : Runs attempt (removeServer dnsId) e code e₁) :
    e₁.held = e.held ↔ ∃ server ∈ e.mem.router.rotation, server.id = dnsId.toUInt16 := by
  simp only [removeServer, lock, unlock, act, request, bind_eq, pure_eq, call_bind, ret_bind,
    runs_call_iff] at ran
  obtain ⟨_, _, locked, _, _, locked', deleted, _, asked, ran⟩ := ran
  obtain ⟨free, rfl⟩ := attempt_lock locked
  obtain ⟨free', rfl⟩ := attempt_lock locked'
  obtain ⟨_, performed, rfl⟩ := attempt_act asked
  simp only [Mem.perform, Option.map_eq_some_iff] at performed
  obtain ⟨⟨_, _⟩, shifted, done⟩ := performed
  cases done
  rw [← shiftOut_deleted sized.covered shifted]
  split at ran
  · next missing =>
    obtain ⟨_, rfl⟩ := runs_ret_iff.mp ran
    have stays : ((e.setLock .mutex true).setLock .tcpMutex true).held .mutex = true := rfl
    constructor
    · intro same
      rw [same, free] at stays
      cases stays
    · intro found
      rw [found] at missing
      cases missing
  · next found =>
    simp only [runs_call_iff, runs_ret_iff] at ran
    obtain ⟨_, _, shrunk, _, _, unlocked, _, _, unlocked', _, rfl⟩ := ran
    obtain ⟨_, _, rfl⟩ := attempt_act shrunk
    cases unlocked
    cases unlocked'
    have back : ((((e.setLock .mutex true).setLock .tcpMutex true).setLock .mutex false).setLock
        .tcpMutex false).held = e.held := by
      funext l
      cases l with
      | mutex => exact free.symm
      | tcpMutex => exact free'.symm
    exact iff_of_true back (by simpa using found)

theorem forwardRequest_locks (ran : Runs attempt (forwardRequest message) e result e₁) :
    e₁.held = e.held ↔ e.mem.router.serverCnt ≠ 0 := by
  simp only [forwardRequest, lock, unlock, act, request, bind_eq, pure_eq, call_bind, ret_bind,
    runs_call_iff] at ran
  obtain ⟨_, _, locked, router, _, read, ran⟩ := ran
  obtain ⟨free, rfl⟩ := attempt_lock locked
  obtain ⟨_, read, rfl⟩ := attempt_act read
  cases read
  split at ran
  · exact absurd ran attempt_fault
  · next choice =>
    simp only [runs_call_iff] at ran
    obtain ⟨_, _, turned, _, _, read, ran⟩ := ran
    obtain ⟨_, turned, rfl⟩ := attempt_act turned
    obtain ⟨_, read, rfl⟩ := attempt_act read
    cases turned
    cases read
    have online : e.mem.router.serverCnt ≠ 0 := by
      intro empty
      change chooseServer e.mem.router.mode e.mem.router.currServer e.mem.router.serverCnt = _ at choice
      rw [empty, chooseServer_empty] at choice
      cases choice
    split at ran
    · next empty => exact absurd empty online
    · split at ran
      · exact absurd ran attempt_fault
      · simp only [runs_call_iff, runs_ret_iff] at ran
        obtain ⟨_, _, sent, _, _, unlocked, _, rfl⟩ := ran
        obtain ⟨_, _, rfl⟩ := attempt_act sent
        cases unlocked
        exact iff_of_true (setLock_back free) online

theorem attempt_send (asked : attempt e (.send socket bytes) = some (sent, e₁)) :
    ∃ sends, e.outcomes.sends = sent :: sends ∧
      e₁ = { e with outcomes := { e.outcomes with sends := sends } } := by
  simp only [attempt, system, outcomesNetwork, Option.map_eq_some_iff] at asked
  obtain ⟨_, answered, done⟩ := asked
  cases done
  split at answered
  · cases answered
  · next sends left =>
    cases answered
    exact ⟨sends, left, rfl⟩

theorem attempt_recv (asked : attempt e (.recv socket len) = some (got, e₁)) :
    ∃ recvs, e.outcomes.recvs = got :: recvs ∧
      e₁ = { e with outcomes := { e.outcomes with recvs := recvs } } := by
  simp only [attempt, system, outcomesNetwork, Option.map_eq_some_iff] at asked
  obtain ⟨_, answered, done⟩ := asked
  cases done
  split at answered
  · cases answered
  · next recvs left =>
    split at answered
    · cases answered
      exact ⟨recvs, left, rfl⟩
    · cases answered

/-- One turn sends a port, or ends the loop: with an error when one of its calls fails. -/
theorem sendPort_attempt (ran : Runs attempt (sendPort socket i) e next e₁) :
    e₁.mem = e.mem ∧ e₁.held = e.held ∧
      if e.mem.router.serverCnt.toNat ≤ i then next = .inr 0
      else next = .inl (i + 1) ∧ e.outcomes.sends = true :: e₁.outcomes.sends ∧
          (∃ bytes, e.outcomes.recvs = some bytes :: e₁.outcomes.recvs) ∨
        (∃ code, next = .inr code ∧ code ≠ 0) ∧
          (e.outcomes.sends.head? = some false ∨ e.outcomes.recvs.head? = some none) := by
  simp only [sendPort, recv, send, act, request, bind_eq, pure_eq, call_bind, ret_bind, runs_call_iff] at ran
  obtain ⟨router, _, read, ran⟩ := ran
  obtain ⟨_, read, rfl⟩ := attempt_act read
  cases read
  split at ran
  · next all =>
    obtain ⟨rfl, rfl⟩ := runs_ret_iff.mp ran
    rw [if_pos all]
    exact ⟨rfl, rfl, rfl⟩
  · next more =>
    rw [if_neg more]
    simp only [runs_call_iff] at ran
    obtain ⟨got, _, asked, ran⟩ := ran
    obtain ⟨recvs, gotten, rfl⟩ := attempt_recv asked
    cases got with
    | none =>
      obtain ⟨rfl, rfl⟩ := runs_ret_iff.mp ran
      have failed : e.outcomes.recvs.head? = some none := by rw [gotten, List.head?_cons]
      exact ⟨rfl, rfl, .inr ⟨⟨1, rfl, by decide⟩, .inr failed⟩⟩
    | some bytes =>
      simp only [Option.isNone_some, Bool.false_eq_true, if_false, runs_call_iff] at ran
      obtain ⟨router, _, read, ran⟩ := ran
      obtain ⟨_, read, rfl⟩ := attempt_act read
      cases read
      split at ran
      · exact absurd ran attempt_fault
      · simp only [runs_call_iff] at ran
        obtain ⟨sent, _, asked, ran⟩ := ran
        obtain ⟨sends, put, rfl⟩ := attempt_send asked
        cases sent with
        | false =>
          obtain ⟨rfl, rfl⟩ := runs_ret_iff.mp ran
          have failed : e.outcomes.sends.head? = some false := by
            change e.outcomes.sends = _ at put
            rw [put, List.head?_cons]
          exact ⟨rfl, rfl, .inr ⟨⟨2, rfl, by decide⟩, .inl failed⟩⟩
        | true =>
          obtain ⟨rfl, rfl⟩ := runs_ret_iff.mp ran
          exact ⟨rfl, rfl, .inl ⟨rfl, put, bytes, gotten⟩⟩

/-- The loop ends without an error exactly when all its calls succeed. -/
theorem sendPorts_attempt (n : Nat) (left : e.mem.router.serverCnt.toNat - i = n)
    (ran : Runs attempt (.loop i (sendPort socket) .ret) e code e₁) :
    e₁.mem = e.mem ∧ e₁.held = e.held ∧
      (code = 0 ↔ (∀ sent ∈ e.outcomes.sends.take n, sent = true) ∧
        ∀ got ∈ e.outcomes.recvs.take n, got.isSome) := by
  induction n generalizing i e with
  | zero =>
    obtain ⟨next, e₂, turn, rest⟩ := Runs.split (runs_loop_iff.mp ran)
    obtain ⟨mem, held, outcome⟩ := sendPort_attempt turn
    rw [if_pos (by omega)] at outcome
    subst outcome
    obtain ⟨rfl, rfl⟩ := runs_ret_iff.mp rest
    exact ⟨mem, held, by simp⟩
  | succ n ih =>
    obtain ⟨next, e₂, turn, rest⟩ := Runs.split (runs_loop_iff.mp ran)
    obtain ⟨mem, held, outcome⟩ := sendPort_attempt turn
    rw [if_neg (by omega)] at outcome
    rcases outcome with ⟨rfl, sends, bytes, recvs⟩ | ⟨⟨code', rfl, failed⟩, fails⟩
    · obtain ⟨mem', held', ends⟩ := ih (by rw [mem]; omega) rest
      refine ⟨mem'.trans mem, held'.trans held, ?_⟩
      rw [ends, sends, recvs]
      simp
    · obtain ⟨rfl, rfl⟩ := runs_ret_iff.mp rest
      refine ⟨mem, held, iff_of_false failed ?_⟩
      rintro ⟨sends, recvs⟩
      rcases fails with fails | fails
      · obtain ⟨more, script⟩ := List.head?_eq_some_iff.mp fails
        rw [script] at sends
        cases sends false (by simp)
      · obtain ⟨more, script⟩ := List.head?_eq_some_iff.mp fails
        rw [script] at recvs
        cases recvs none (by simp)

theorem attempt_held (e : Attempt) (call : platform.Call) (r : call.Reply) (e₁ : Attempt)
    (apart : ∀ l, call ≠ .lock l ∧ call ≠ .unlock l) (asked : attempt e call = some (r, e₁)) :
    e₁.held = e.held := by
  cases call with
  | lock l => exact absurd rfl (apart l).1
  | unlock l => exact absurd rfl (apart l).2
  | _ =>
    simp only [attempt, Option.map_eq_some_iff] at asked
    obtain ⟨_, _, done⟩ := asked
    cases done
    rfl

/-- The end of a session gives `tcp_mutex` back. -/
theorem endSession_locks {e e₁ e₂ : Attempt} (free : e.held .tcpMutex = false)
    (taken : e₁.held = (e.setLock .tcpMutex true).held)
    (ran : Runs attempt (do
      unlock .tcpMutex
      close socket
      return (0 : UInt8)) e₁ code e₂) : e₂.held = e.held := by
  simp only [unlock, close, request, bind_eq, pure_eq, call_bind, ret_bind, runs_call_iff, runs_ret_iff] at ran
  obtain ⟨_, _, unlocked, _, _, closed, _, rfl⟩ := ran
  cases unlocked
  cases closed
  have back : (e₁.setLock .tcpMutex false).held = ((e.setLock .tcpMutex true).setLock .tcpMutex false).held := by
    rw [Attempt.setLock, taken]
    rfl
  exact back.trans (setLock_back free)

theorem checkTcpConnections_locks (ran : Runs attempt checkTcpConnections e code e₁) :
    e₁.held = e.held ↔ RouterOp.session.Meets e := by
  simp only [checkTcpConnections, createTcpConnections, lock, send, act, request, bind_eq,
    pure_eq, call_bind, ret_bind, runs_call_iff] at ran
  obtain ⟨socket, _, accepted, _, _, locked, router, _, read, sent, _, counted, ran⟩ := ran
  cases accepted
  obtain ⟨free, rfl⟩ := attempt_lock locked
  obtain ⟨_, read, rfl⟩ := attempt_act read
  cases read
  obtain ⟨sends, put, rfl⟩ := attempt_send counted
  change e.outcomes.sends = _ at put
  have keeps : e₁.held = (e.setLock .tcpMutex true).held → e₁.held ≠ e.held := by
    intro stays same
    have taken := congrFun (stays.symm.trans same) .tcpMutex
    rw [free] at taken
    cases taken
  unfold RouterOp.Meets
  rw [put, List.take_succ_cons, List.forall_mem_cons]
  cases sent with
  | false =>
    obtain ⟨_, rfl⟩ := runs_ret_iff.mp ran
    exact iff_of_false (keeps rfl) (by rintro ⟨⟨⟨⟩, _⟩, _⟩)
  | true =>
    obtain ⟨code', e₂, ports, ran⟩ := Runs.split ran
    obtain ⟨_, held, succeeds⟩ := sendPorts_attempt e.mem.router.serverCnt.toNat (by rfl) ports
    simp only [true_and]
    change code' = 0 ↔ _ at succeeds
    split at ran
    · next failed =>
      obtain ⟨_, rfl⟩ := runs_ret_iff.mp ran
      exact iff_of_false (keeps held) fun meets => failed (succeeds.mpr meets)
    · next sent =>
      obtain ⟨result, e₃, pointer, ran⟩ := Runs.split ran
      have same : e₃.held = e₂.held := (recievePointer_quiet _).runs attempt_held pointer
      refine iff_of_true ?_ (succeeds.mp (not_not.mp sent))
      split at ran
      · obtain ⟨dns, _, found, ran⟩ := runs_call_iff.mp ran
        obtain ⟨_, _, rfl⟩ := attempt_act found
        obtain ⟨_, e₄, added, ran⟩ := Runs.split ran
        have same' := addDnsServer_locks added
        exact endSession_locks free (same'.trans (same.trans held)) ran
      · exact endSession_locks free (same.trans held) ran

/-- A call that returns leaves the mutexes as they were exactly when the server to remove is there,
some server is online to forward to, or no call fails while the list of the ports is sent. -/
theorem locks_released_iff (op : RouterOp) (sized : e.mem.router.Sized) (ran : Runs attempt op.program e () e₁) :
    e₁.held = e.held ↔ op.Meets e := by
  cases op with
  | add dns =>
    obtain ⟨_, _, added, done⟩ := Runs.split ran
    obtain ⟨_, rfl⟩ := runs_ret_iff.mp done
    exact iff_of_true (addDnsServer_locks added) trivial
  | remove dnsId =>
    obtain ⟨_, _, removed, done⟩ := Runs.split ran
    obtain ⟨_, rfl⟩ := runs_ret_iff.mp done
    exact removeServer_locks sized removed
  | forward message =>
    obtain ⟨_, _, forwarded, done⟩ := Runs.split ran
    obtain ⟨_, rfl⟩ := runs_ret_iff.mp done
    exact forwardRequest_locks forwarded
  | session =>
    obtain ⟨_, _, served, done⟩ := Runs.split ran
    obtain ⟨_, rfl⟩ := runs_ret_iff.mp done
    exact checkTcpConnections_locks served

/-- One server in rotation, with id 0, both mutexes free and no socket call to come. -/
def oneServer : Attempt where
  mem := { startMem .roundRobin with router := ⟨.roundRobin, [createDnsServer [] 0 0 0], 1, 0⟩ }
  outcomes := ⟨[], [], 0⟩
  held _ := false

theorem locks_released_remove :
    ∃ e₁, Runs attempt (RouterOp.remove 0).program oneServer () e₁ ∧
      (e₁.held = oneServer.held ↔ (RouterOp.remove 0).Meets oneServer) := by
  have ran : ∃ e₁, Runs attempt (RouterOp.remove 0).program oneServer () e₁ :=
    ⟨_, runs_of_run (n := 6) rfl⟩
  obtain ⟨e₁, ran⟩ := ran
  exact ⟨e₁, ran, locks_released_iff (.remove 0) rfl ran⟩

/-- The removal of a server that is not there returns with both mutexes held. -/
theorem removal_keeps_locks :
    ∃ e₁, Runs attempt (RouterOp.remove 1).program oneServer () e₁ ∧
      e₁.held .mutex = true ∧ e₁.held .tcpMutex = true ∧ e₁.held ≠ oneServer.held := by
  have ran : Runs attempt (RouterOp.remove 1).program oneServer ()
      ((oneServer.setLock .mutex true).setLock .tcpMutex true) := runs_of_run (n := 6) rfl
  refine ⟨_, ran, rfl, rfl, ?_⟩
  intro same
  exact absurd (congrFun same .mutex) (by decide)

end DnsServer
