import DnsServer.Coms.Requests
import DnsServer.Process.Locks
import DnsServer.Process.Schedule
import DnsServer.Router.Programs

/-! The router's three threads and its two mutexes. -/
namespace DnsServer
open Process Program

/-- Any number of clients, each with one session. -/
inductive RouterThread where
  | generator
  | health
  | tcp
  | client (n : Nat)
  deriving DecidableEq

/-- The generator's loop over its requests. -/
def sendToRouter (message : Nat → Bytes) : Proc UInt8 :=
  .loop 0 (fun (i : Nat) => do
      let _ ← forwardRequest (message i)
      return .inl (i + 1))
    (.ret : UInt8 → Proc UInt8)

/-- A client that takes every port and then sends its pointer. -/
def followProtocol (pointer : Bytes) : Proc UInt8 := do
  let newSocket ← connectToTcp routerTcpPortNum
  let portCnt ← recvUnchecked newSocket
  let _ ← recievePorts newSocket portCnt.toNat []
  let _ ← send newSocket pointer
  close newSocket
  return 0

def routerThreads (message : Nat → Bytes) (pointer : Nat → Bytes) : RouterThread → Proc UInt8
  | .generator => sendToRouter message
  | .health => checkServers
  | .tcp => checkIpListRequests
  | .client n => followProtocol (pointer n)

/-- Sends to servers, pongs and uninitialised memory may turn out in any way. -/
def anyWorld : Action platform RouterThread Mem := fun _ m op r m₁ =>
  ∃ world, m.perform world op = some (r, m₁)

abbrev RouterState := State platform RouterThread Mem

/-- What each thread holds and has last done when it may ask for a mutex. -/
def mayLock : RouterThread → Holding platform → Lock → Prop
  | .generator, s, l => l = .mutex ∧ s.held = ∅
  | .health, s, l => l = .mutex ∧ s.held = ∅ ∨
      l = .tcpMutex ∧ s.held = {.mutex} ∧ s.last = some (.lock .mutex)
  | .tcp, s, l => l = .tcpMutex ∧ s.held = ∅ ∨
      l = .mutex ∧ s.held = {.tcpMutex} ∧ ∃ pointer, s.last = some (.act (.object pointer))
  | .client _, _, _ => False

abbrev discipline (t : RouterThread) : Protocol platform.interface (Holding platform) :=
  locking (mayLock t)

/-- Nothing comes after undefined behaviour. -/
theorem quiet_fault {k : Empty → Proc α} : (@Program.call platform.interface α (.act Op.fault) k).Quiet :=
  .request (by simp) fun impossible => impossible.elim

theorem disciplined_fault {post : α → Holding platform → Prop} {k : Empty → Proc α} {s : Holding platform} :
    (@Program.call platform.interface α (.act Op.fault) k).Obeys (discipline t) post s :=
  .request (by simp) fun impossible => impossible.elim

theorem quiet_of_asks {p : Proc α}
    (asks : p.Asks fun call : platform.Call => ∀ l, call ≠ .lock l ∧ call ≠ .unlock l) : p.Quiet := by
  induction p with
  | ret a => trivial
  | call op k ih => exact ⟨asks.1, fun r => ih r (asks.2 r)⟩
  | loop b body k ihb ihk => exact ⟨fun b => ihb b (asks.1 b), fun c => ihk c (asks.2 c)⟩

theorem followProtocol_quiet (pointer : Bytes) : (followProtocol pointer).Quiet := by
  simp only [followProtocol, connectToTcp, send, close, request, bind_eq, pure_eq, call_bind, ret_bind]
  refine .request (by simp) fun socket => ?_
  refine (quiet_of_asks (recvUnchecked_asks _ (by simp) (by simp))).bind fun portCnt => ?_
  refine (quiet_of_asks (recievePorts_asks _ (by simp) (by simp) (by simp) (by simp) _ _)).bind fun ports => ?_
  exact .request (by simp) fun _ => .request (by simp) fun _ => trivial

theorem sendPorts_quiet (socket : Socket) : (sendPorts socket).Quiet := by
  refine .turns (fun i => ?_) fun _ => trivial
  simp only [sendPort, act, recv, send, fault, request, bind_eq, pure_eq, call_bind, ret_bind]
  refine .request (by simp) fun router => ?_
  split
  · trivial
  refine .request (by simp) fun ack => ?_
  split
  · trivial
  refine .request (by simp) fun router => ?_
  split
  · exact quiet_fault
  refine .request (by simp) fun sent => ?_
  split
  · trivial
  · trivial

theorem recievePointer_quiet (socket : Socket) : (recievePointer socket).Quiet := by
  refine .turns ?_ fun _ => trivial
  rintro ⟨result, res, size⟩
  simp only [recievePointerPart, recv, fault, request, bind_eq, pure_eq, call_bind, ret_bind]
  split
  · trivial
  refine .request (by simp) fun received => ?_
  split
  · trivial
  split
  · exact quiet_fault
  · trivial

theorem sendPings_quiet : sendPings.Quiet := by
  refine .turns (fun i => ?_) fun _ => trivial
  simp only [act, fault, request, bind_eq, pure_eq, call_bind, ret_bind]
  refine .request (by simp) fun router => ?_
  split
  · trivial
  refine .request (by simp) fun buffer => ?_
  split
  · exact quiet_fault
  split
  · exact quiet_fault
  · exact .request (by simp) fun _ => trivial

theorem listServers_quiet (offline : Bytes) : (listServers offline).Quiet := by
  refine .turns ?_ fun _ => trivial
  rintro ⟨offline, i⟩
  simp only [act, fault, request, bind_eq, pure_eq, call_bind, ret_bind]
  refine .request (by simp) fun router => ?_
  split
  · trivial
  split
  · exact quiet_fault
  split
  · exact quiet_fault
  · trivial

theorem crossOff_quiet (offline : Bytes) (cnt : UInt8) : (crossOff offline cnt).Quiet := by
  simp only [crossOff, act, fault, request, bind_eq, pure_eq, call_bind, ret_bind]
  refine .request (by simp) fun buffer => .turns ?_ fun _ => trivial
  rintro ⟨offline, cnt, last⟩
  refine .request (by simp) fun received => ?_
  split
  · trivial
  split
  · exact quiet_fault
  · trivial

/-- Requests that the generator never comes back from leave it holding the mutex. -/
theorem forwardRequest_obeys (message : Bytes) (s : Holding platform)
    (before : s.held = ∅ ∨ Lock.mutex ∈ s.held) :
    (forwardRequest message).Obeys (discipline .generator)
      (fun _ s₁ => s₁.held = ∅ ∨ Lock.mutex ∈ s₁.held) s := by
  simp only [forwardRequest, lock, unlock, act, fault, request, bind_eq, pure_eq, call_bind, ret_bind]
  refine .lock fun unheld => ?_
  have none := before.resolve_right unheld
  refine ⟨⟨rfl, none⟩, .request (by simp) fun router => ?_⟩
  split
  · exact disciplined_fault
  refine .request (by simp) fun _ => .request (by simp) fun router => ?_
  split
  · exact .inr (Set.mem_insert _ _)
  split
  · exact disciplined_fault
  refine .request (by simp) fun error => .unlock (Set.mem_insert _ _) ?_
  refine .inl ?_
  change insert Lock.mutex s.held \ {Lock.mutex} = ∅
  rw [none]
  simp

theorem sendToRouter_obeys (message : Nat → Bytes) (s : Holding platform) (start : s.held = ∅) :
    (sendToRouter message).Obeys (discipline .generator) (fun _ _ => True) s := by
  refine ⟨fun _ s => s.held = ∅ ∨ Lock.mutex ∈ s.held, .inl start, fun i s before => ⟨trivial, ?_⟩⟩
  exact .bind ((forwardRequest_obeys (message i) _ before).mono fun _ _ more => more)

/-- Where the server is not found, both mutexes stay held. -/
theorem removeServer_obeys (dnsId : UInt8) (s : Holding platform)
    (before : s.held = ∅ ∨ s.held = {.mutex, .tcpMutex}) :
    (removeServer dnsId).Obeys (discipline .health)
      (fun _ s₁ => s₁.held = ∅ ∨ s₁.held = {.mutex, .tcpMutex}) s := by
  simp only [removeServer, lock, unlock, act, request, bind_eq, pure_eq, call_bind, ret_bind]
  refine .lock fun unheld => ?_
  have none : s.held = ∅ := before.resolve_right fun both => unheld (both ▸ Set.mem_insert _ _)
  refine ⟨.inl ⟨rfl, none⟩, ?_⟩
  rw [none, insert_empty_eq]
  refine .lock fun _ => ⟨.inr ⟨rfl, rfl, rfl⟩, .request (by simp) fun deleted => ?_⟩
  have both : insert Lock.tcpMutex ({Lock.mutex} : Set Lock) = {Lock.mutex, Lock.tcpMutex} :=
    Set.pair_comm _ _
  split
  · exact .inr both
  refine .request (by simp) fun _ => .unlock (by simp) (.unlock (by simp) (.inl ?_))
  ext l
  cases l <;> simp

theorem removeServers_obeys (offline : List UInt8) (s : Holding platform)
    (before : s.held = ∅ ∨ s.held = {.mutex, .tcpMutex}) :
    (removeServers offline).Obeys (discipline .health)
      (fun _ s₁ => s₁.held = ∅ ∨ s₁.held = {.mutex, .tcpMutex}) s := by
  induction offline generalizing s with
  | nil => exact before
  | cons dnsId offline ih =>
    exact .bind ((removeServer_obeys dnsId s before).mono fun _ s₁ more => ih s₁ more)

theorem queryResponseTime_obeys (s : Holding platform)
    (before : s.held = ∅ ∨ s.held = {.mutex, .tcpMutex}) :
    queryResponseTime.Obeys (discipline .health)
      (fun _ s₁ => s₁.held = ∅ ∨ s₁.held = {.mutex, .tcpMutex}) s := by
  simp only [queryResponseTime, act, fault, request, bind_eq, pure_eq, call_bind, ret_bind]
  refine .request (by simp) fun starting => .bind ((sendPings_quiet.obeys _ _).mono fun _ s₁ same₁ => ?_)
  refine .request (by simp) fun router => .request (by simp) fun offline =>
    .request (by simp) fun router' => .bind (((listServers_quiet _).obeys _ _).mono fun _ s₂ same₂ => ?_)
  refine .bind (((crossOff_quiet _ _).obeys _ _).mono ?_)
  rintro ⟨offline, cnt⟩ s₃ same₃
  have now : s₃.held = s.held := same₃.trans (same₂.trans same₁)
  refine .request (by simp) fun router => ?_
  split
  · exact now ▸ before
  split
  · exact disciplined_fault
  · exact .bind ((removeServers_obeys _ _ (now ▸ before)).mono fun _ _ more => more)

theorem checkServers_obeys (s : Holding platform) (start : s.held = ∅) :
    checkServers.Obeys (discipline .health) (fun _ _ => True) s := by
  refine ⟨fun _ s => s.held = ∅ ∨ s.held = {.mutex, .tcpMutex}, .inl start,
    fun _ s before => ⟨trivial, ?_⟩⟩
  exact .bind ((queryResponseTime_obeys _ before).mono fun _ _ more => more)

theorem addDnsServer_obeys (dns : Server) (s : Holding platform) (session : s.held = {.tcpMutex})
    (taken : ∃ pointer, s.last = some (.act (.object pointer))) :
    (addDnsServer dns).Obeys (discipline .tcp) (fun _ s₁ => s₁.held = {.tcpMutex}) s := by
  simp only [addDnsServer, lock, unlock, act, request, bind_eq, pure_eq, call_bind, ret_bind]
  refine .lock fun _ => ⟨.inr ⟨rfl, session, taken⟩, .request (by simp) fun _ => .unlock (by simp) ?_⟩
  change insert Lock.mutex s.held \ {Lock.mutex} = {Lock.tcpMutex}
  rw [session]
  ext l
  cases l <;> simp

/-- A session that fails leaves the thread holding its mutex. -/
theorem checkTcpConnections_obeys (s : Holding platform)
    (before : s.held = ∅ ∨ s.held = {.tcpMutex}) :
    checkTcpConnections.Obeys (discipline .tcp)
      (fun _ s₁ => s₁.held = ∅ ∨ s₁.held = {.tcpMutex}) s := by
  simp only [checkTcpConnections, createTcpConnections, send, lock, unlock, close, act, request,
    bind_eq, pure_eq, call_bind, ret_bind]
  refine .request (by simp) fun socket => .lock fun unheld => ?_
  have none : s.held = ∅ := before.resolve_right fun session => unheld (by simp [session])
  refine ⟨.inl ⟨rfl, none⟩, ?_⟩
  simp only [none, insert_empty_eq]
  refine .request (by simp) fun router => .request (by simp) fun sent => ?_
  split
  · exact .inr rfl
  refine .bind (((sendPorts_quiet socket).obeys _ _).mono fun sent s₁ same₁ => ?_)
  split
  · exact .inr same₁
  refine .bind (((recievePointer_quiet socket).obeys _ _).mono fun result s₂ same₂ => ?_)
  have session : s₂.held = {.tcpMutex} := same₂.trans same₁
  have finish : ∀ s₃ : Holding platform, s₃.held = {.tcpMutex} →
      (@Program.call platform.interface UInt8 (.unlock .tcpMutex) fun _ =>
        @Program.call platform.interface UInt8 (.close socket) fun _ => .ret 0).Obeys
          (discipline .tcp) (fun _ s₁ => s₁.held = ∅ ∨ s₁.held = {.tcpMutex}) s₃ := by
    intro s₃ held
    refine .unlock (by simp [held]) (.request (by simp) fun _ => .inl ?_)
    change s₃.held \ {Lock.tcpMutex} = ∅
    rw [held]
    simp
  split
  · refine .request (by simp) fun dns => .bind ?_
    exact (addDnsServer_obeys dns ⟨s₂.held, some (.act (.object result))⟩ session ⟨result, rfl⟩).mono fun _ => finish
  · exact finish s₂ session

theorem checkIpListRequests_obeys (s : Holding platform) (start : s.held = ∅) :
    checkIpListRequests.Obeys (discipline .tcp) (fun _ _ => True) s := by
  refine ⟨fun _ s => s.held = ∅ ∨ s.held = {.tcpMutex}, .inl start, fun _ s before => ⟨trivial, ?_⟩⟩
  exact .bind ((checkTcpConnections_obeys _ before).mono fun _ _ more => more)

/-! Deadlock. -/

structure RouterStart (message : Nat → Bytes) (pointer : Nat → Bytes) (G : RouterState) : Prop where
  threads : G.threads = routerThreads message pointer
  free : ∀ l, G.locks l = none

/-- The TCP thread has the pointer of a server that it is about to add. -/
def Joins (G : RouterState) : Prop :=
  ∃ pointer k, G.threads .tcp = @Program.call platform.interface _ (.act (.object pointer)) k

/-- `remove_server` does not take the mutex while the TCP thread waits for it in a session, and
no session goes on to add a server while `remove_server` waits for it to end. -/
def Orderly (t : RouterThread) (G : RouterState) : Prop :=
  (t = .health → Wants G .health Lock.mutex →
    ¬ (Wants G .tcp Lock.mutex ∧ G.locks Lock.tcpMutex = some .tcp)) ∧
  (t = .tcp → Joins G → ¬ (Wants G .health Lock.tcpMutex ∧ G.locks Lock.mutex = some .health))

/-- `remove_server` waits for the session to end and the session for `remove_server`. -/
structure Stuck (G : RouterState) : Prop where
  removal : Wants G .health Lock.tcpMutex
  mutex : G.locks Lock.mutex = some .health
  session : Wants G .tcp Lock.mutex
  tcpMutex : G.locks Lock.tcpMutex = some .tcp

theorem lock_cases (l : Lock) : l = .mutex ∨ l = .tcpMutex := by
  cases l with
  | mutex => exact .inl rfl
  | tcpMutex => exact .inr rfl

section
variable {G G₁ : RouterState} {g : RouterThread → Holding platform}
  {post : RouterThread → UInt8 → Holding platform → Prop}

theorem Holds.apart (holds : Holds g G) (held : G.locks l = some t) (other : t ≠ u) :
    l ∉ (g u).held := by
  rw [← holds u l, held]
  simpa using other

/-- Only the removal and the session can wait for each other. -/
theorem deadlock_stuck (follows : Follows discipline post g G) (holds : Holds g G)
    (stuck : Deadlock G) : Stuck G := by
  obtain ⟨t, u, other, wantsT, heldT, wantsU, heldU⟩ :=
    Deadlock.pair (l := Lock.mutex) (m := Lock.tcpMutex) lock_cases stuck
  have allowedT := follows.allowed wantsT (Holds.apart holds heldU other.symm)
  have allowedU := follows.allowed wantsU (Holds.apart holds heldT other)
  have inT := (holds t _).mp heldT
  have inU := (holds u _).mp heldU
  have isHealth : t = .health := by
    cases t with
    | health => rfl
    | generator => exact absurd allowedT.1 (by decide)
    | client n => exact allowedT.elim
    | tcp =>
      rcases allowedT with ⟨_, none⟩ | ⟨asks, _⟩
      · rw [none] at inT
        exact inT.elim
      · exact absurd asks (by decide)
  have isTcp : u = .tcp := by
    cases u with
    | tcp => rfl
    | generator =>
      rw [allowedU.2] at inU
      exact inU.elim
    | client n => exact allowedU.elim
    | health => exact absurd isHealth other
  subst isHealth isTcp
  exact ⟨wantsT, heldT, wantsU, heldU⟩

theorem Holds.before (holds : Holds g G) (holds₁ : Holds (Function.update g t s) G₁) (other : u ≠ t)
    (held : G₁.locks l = some u) : G.locks l = some u := by
  rw [holds₁ u l, Function.update_of_ne other, ← holds u l] at held
  exact held

theorem Wants.before {action : Action platform RouterThread Mem} (moved : Step action t G G₁)
    (other : u ≠ t) (wants : Wants G₁ u l) : Wants G u l := by
  obtain ⟨k, at_⟩ := wants
  exact ⟨k, (step_other moved other).symm.trans at_⟩

/-- An orderly step leads to no deadlock: the last request before it would be the one that
the step must not make. -/
theorem orderly_step (follows : Follows discipline post g G) (holds : Holds g G)
    (free : ¬ Stuck G) (orderly : Orderly t G) (moved : Step anyWorld t G G₁) :
    ∃ s, Follows discipline post (Function.update g t s) G₁ ∧ Holds (Function.update g t s) G₁ ∧
      ¬ Stuck G₁ := by
  obtain ⟨s, follows₁, holds₁, last⟩ := follows.locked holds moved
  refine ⟨s, follows₁, holds₁, fun stuck => ?_⟩
  by_cases health : t = .health
  · subst health
    have other : RouterThread.tcp ≠ .health := by decide
    have allowed := follows₁.allowed stuck.removal (Holds.apart holds₁ stuck.tcpMutex other)
    rw [Function.update_self] at allowed
    rcases allowed with ⟨asks, _⟩ | ⟨_, _, latest⟩
    · cases asks
    · obtain ⟨k, at_, _⟩ := last _ latest
      exact orderly.1 rfl ⟨k, at_⟩
        ⟨Wants.before moved other stuck.session, Holds.before holds holds₁ other stuck.tcpMutex⟩
  by_cases tcp : t = .tcp
  · subst tcp
    have other : RouterThread.health ≠ .tcp := by decide
    have allowed := follows₁.allowed stuck.session (Holds.apart holds₁ stuck.mutex other)
    rw [Function.update_self] at allowed
    rcases allowed with ⟨asks, _⟩ | ⟨_, _, pointer, latest⟩
    · cases asks
    · obtain ⟨k, at_, _⟩ := last _ latest
      exact orderly.2 rfl ⟨pointer, k, at_⟩
        ⟨Wants.before moved other stuck.removal, Holds.before holds holds₁ other stuck.mutex⟩
  · refine free ⟨?_, ?_, ?_, ?_⟩
    · exact Wants.before moved (Ne.symm health) stuck.removal
    · exact Holds.before holds holds₁ (Ne.symm health) stuck.mutex
    · exact Wants.before moved (Ne.symm tcp) stuck.session
    · exact Holds.before holds holds₁ (Ne.symm tcp) stuck.tcpMutex

theorem start_follows (start : RouterStart message pointer G) :
    Follows discipline (fun _ _ _ => True) (fun _ => ⟨∅, none⟩) G ∧ Holds (fun _ => ⟨∅, none⟩) G := by
  constructor
  · intro t
    rw [start.threads]
    cases t with
    | generator => exact sendToRouter_obeys message _ rfl
    | health => exact checkServers_obeys _ rfl
    | tcp => exact checkIpListRequests_obeys _ rfl
    | client n => exact ((followProtocol_quiet (pointer n)).obeys _ _).mono fun _ _ _ => trivial
  · intro t l
    rw [start.free]
    simp

/-- In a run whose steps are all orderly no threads ever wait for each other. -/
theorem router_deadlock_free (start : RouterStart message pointer G)
    (run : ReachesUnder anyWorld Orderly G G₁) : ¬ Deadlock G₁ := by
  let Inv (G : RouterState) : Prop := ∃ g : RouterThread → Holding platform,
    Follows discipline (fun _ _ _ => True) g G ∧ Holds g G ∧ ¬ Stuck G
  have initially : Inv G := by
    obtain ⟨follows, holds⟩ := start_follows start
    refine ⟨_, follows, holds, fun stuck => ?_⟩
    have held := stuck.mutex
    rw [start.free] at held
    cases held
  have kept : Inv G₁ := by
    refine run.invariant ?_ initially
    rintro t G G₁ ⟨g, follows, holds, free⟩ orderly moved
    obtain ⟨s, next⟩ := orderly_step follows holds free orderly moved
    exact ⟨_, next⟩
  obtain ⟨g, follows, holds, free⟩ := kept
  exact fun stuck => free (deadlock_stuck follows holds stuck)

end

theorem silentWorld_sound (t : RouterThread) (m : Mem) (op : Op) (r : op.Reply) (m₁ : Mem)
    (performed : m.perform silentWorld op = some (r, m₁)) : anyWorld t m op r m₁ :=
  ⟨silentWorld, performed⟩

/-- One server is in rotation and clients join with further ones. -/
def joiningStart : RouterState where
  mem := { startMem .roundRobin with
    router := ⟨.roundRobin, [createDnsServer [] 0 0 0], 1, 0⟩
    object := fun _ => createDnsServer [] 1 0 0 }
  locks := fun _ => none
  conns := fun _ => Conn.opened
  next := 0
  backlog := fun _ => []
  threads := routerThreads (fun _ => []) fun _ => [1, 0, 0, 0, 0, 0, 0, 0]

theorem joiningStart_start :
    RouterStart (fun _ => []) (fun _ => [1, 0, 0, 0, 0, 0, 0, 0]) joiningStart := ⟨rfl, fun _ => rfl⟩

/-- A session of the first client, with nothing else going on. -/
def session (n : Nat) : List RouterThread := (List.replicate n [.client 0, .tcp]).flatten

/-- The health thread goes on when no session is open, and the TCP thread when no server is being removed. -/
def takesTurns (t : RouterThread) (G : RouterState) : Bool :=
  (t != .health || G.locks .tcpMutex != some .tcp) && (t != .tcp || G.locks .mutex != some .health)

theorem orderly_of_takesTurns (t : RouterThread) (G : RouterState) (turns : takesTurns t G = true) : Orderly t G := by
  obtain ⟨removes, joins⟩ := Bool.and_eq_true_iff.mp turns
  refine ⟨?_, ?_⟩
  · rintro rfl _ ⟨_, held⟩
    simp [held] at removes
  · rintro rfl _ ⟨_, held⟩
    simp [held] at joins

/-- A round that finds the server silent and removes it, and a session in which the first client joins. -/
theorem router_deadlock_free_removal :
    let removed := joiningStart.follow (Mem.perform silentWorld) (List.replicate 30 .health)
    let G := joiningStart.follow (Mem.perform silentWorld) (List.replicate 30 .health ++ session 20)
    removed.mem.router.serverCnt = 0 ∧ ReachesUnder anyWorld Orderly joiningStart G ∧
      G.mem.router.serverCnt = 1 ∧ ¬ Deadlock G := by
  intro removed G
  have run : ReachesUnder anyWorld Orderly joiningStart G :=
    reachesUnder_follow_allows silentWorld_sound orderly_of_takesTurns (by decide +kernel)
  exact ⟨by decide +kernel, run, by decide +kernel, router_deadlock_free joiningStart_start run⟩

theorem Stuck.deadlock {G : RouterState} (stuck : Stuck G) : Deadlock G := by
  refine ⟨{.health, .tcp}, ⟨.health, by simp⟩, ?_⟩
  rintro t (rfl | rfl)
  · exact ⟨_, stuck.removal, .tcp, by simp, by decide, stuck.tcpMutex⟩
  · exact ⟨_, stuck.session, .health, by simp, by decide, stuck.mutex⟩

/-- The silent server's removal begins while a client joins. -/
theorem removal_meets_join : ∃ G, Reaches anyWorld joiningStart G ∧ Deadlock G := by
  let schedule : List RouterThread :=
    [.client 0, .tcp, .tcp, .tcp] ++ List.replicate 30 .health ++ session 20
  refine ⟨_, reaches_follow silentWorld_sound schedule joiningStart, Stuck.deadlock ⟨?_, ?_, ?_, ?_⟩⟩
  · exact wants_of_asks (by decide +kernel)
  · decide +kernel
  · exact wants_of_asks (by decide +kernel)
  · decide +kernel

end DnsServer
