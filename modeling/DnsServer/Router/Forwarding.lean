import DnsServer.Cli

/-! Forwarding in every rotation that a run of the router reaches. -/
namespace DnsServer
open Process Program

def sendsEnd (error : UInt8) : World
  | .sendPacket _ _ => some error
  | _ => none

/-- Runs a router program by itself: locks are free and a send ends in `error`. -/
def alone (error : UInt8) : Handler platform.interface Mem
  | m, .lock _ => some ((), m)
  | m, .unlock _ => some ((), m)
  | m, .act op => m.perform (sendsEnd error) op
  | _, _ => none

inductive RouterCall where
  | forward (message : Bytes)
  | add (dns : Server)
  /-- The removals that end a health round. -/
  | remove (offline : List UInt8)

def RouterCall.program : RouterCall → Proc Unit
  | .forward message => do
    let _ ← forwardRequest message
    return
  | .add dns => do
    let _ ← addDnsServer dns
    return
  | .remove offline => removeServers offline

/-- What a run of calls, each with its own outcome of the sends, reaches. -/
inductive AfterCalls (m : Mem) : Mem → Prop where
  | start : AfterCalls m m
  | call : AfterCalls m m₁ → (c : RouterCall) → Runs (alone error) c.program m₁ () m₂ → AfterCalls m m₂

/-- No remainder by zero, no index at or beyond the count, and the error path with the
turn unchanged when the rotation is empty. -/
def ForwardSafe (m : Mem) : Prop :=
  ∀ message error, ∃ chosen next result m₁,
    chooseServer m.router.mode m.router.currServer m.router.serverCnt = some (chosen, next) ∧
    (m.router.serverCnt ≠ 0 → chosen < m.router.serverCnt) ∧
    Runs (alone error) (forwardRequest message) m result m₁ ∧
    (m.router.serverCnt = 0 → result.1 ≠ 0 ∧ m₁.router.currServer = m.router.currServer)

section
variable {m m₁ : Mem}

theorem addDnsServer_spec (sized : m.router.Sized)
    (ran : Runs (alone error) (addDnsServer dns) m code m₁) :
    m₁.router.Sized ∧ m₁.router.rotation = m.router.rotation ++ [dns] ∧ m₁.coms = m.coms := by
  simp only [addDnsServer, lock, unlock, act, request, bind_eq, pure_eq, call_bind, ret_bind,
    runs_call_iff, runs_ret_iff, alone, Mem.perform, Option.map_eq_some_iff] at ran
  obtain ⟨_, _, locked, _, _, ⟨router, added, done⟩, _, _, unlocked, _, rfl⟩ := ran
  cases locked
  cases done
  cases unlocked
  obtain ⟨sized₁, rotation, _⟩ := addServer_spec sized.covered dns added
  exact ⟨sized₁, rotation, rfl⟩

theorem removeServer_spec (sized : m.router.Sized)
    (ran : Runs (alone error) (removeServer dnsId) m code m₁) :
    m₁.router.Sized ∧ m₁.router.rotation = m.router.rotation.eraseP (·.id = dnsId.toUInt16) ∧
      m₁.coms = m.coms := by
  simp only [removeServer, lock, unlock, act, request, bind_eq, pure_eq, call_bind, ret_bind,
    runs_call_iff, alone, Mem.perform, Option.map_eq_some_iff] at ran
  obtain ⟨_, _, locked, _, _, locked', _, _, ⟨⟨_, _⟩, shifted, done⟩, ran⟩ := ran
  cases locked
  cases locked'
  cases done
  obtain ⟨found, router, same, _, _, rotation, covered, kept⟩ := shiftOut_spec sized.covered dnsId
  obtain ⟨rfl, rfl⟩ := Prod.mk.inj (Option.some.inj (same.symm.trans shifted))
  cases found with
  | false =>
    obtain ⟨_, rfl⟩ := runs_ret_iff.mp ran
    rw [kept rfl] at rotation ⊢
    exact ⟨sized, rotation, rfl⟩
  | true =>
    simp only [Bool.not_true, Bool.false_eq_true, if_false, runs_call_iff, runs_ret_iff] at ran
    obtain ⟨_, _, done, _, _, unlocked, _, _, unlocked', _, rfl⟩ := ran
    cases done
    cases unlocked
    cases unlocked'
    obtain ⟨sized₁, same⟩ := shrinkServers_spec covered
    exact ⟨sized₁, same.trans rotation, rfl⟩

theorem removeServers_sized (sized : m.router.Sized)
    (ran : Runs (alone error) (removeServers offline) m u m₁) : m₁.router.Sized := by
  induction offline generalizing m with
  | nil =>
    obtain ⟨_, rfl⟩ := runs_ret_iff.mp ran
    exact sized
  | cons dnsId offline ih =>
    obtain ⟨_, _, first, rest⟩ := Runs.split ran
    exact ih (removeServer_spec sized first).1 rest

theorem forwardRequest_sized (sized : m.router.Sized)
    (ran : Runs (alone error) (forwardRequest message) m result m₁) : m₁.router.Sized := by
  simp only [forwardRequest, lock, unlock, act, request, bind_eq, pure_eq, call_bind, ret_bind,
    runs_call_iff, alone, Mem.perform] at ran
  obtain ⟨_, _, locked, router, _, read, ran⟩ := ran
  cases locked
  cases read
  split at ran
  · simp [fault, runs_call_iff, alone, Mem.perform] at ran
  · simp only [runs_call_iff] at ran
    obtain ⟨_, _, turned, _, _, read, ran⟩ := ran
    cases turned
    cases read
    split at ran
    · obtain ⟨_, rfl⟩ := runs_ret_iff.mp ran
      exact sized
    · split at ran
      · simp [fault, runs_call_iff, alone, Mem.perform] at ran
      · simp only [runs_call_iff, runs_ret_iff, alone] at ran
        obtain ⟨_, _, sent, _, _, unlocked, _, rfl⟩ := ran
        cases sent
        cases unlocked
        exact sized

theorem createServers_sized (sized : m.router.Sized)
    (ran : Runs (alone error) (createServers address i n) m u m₁) : m₁.router.Sized := by
  induction n generalizing m i with
  | zero =>
    obtain ⟨_, rfl⟩ := runs_ret_iff.mp ran
    exact sized
  | succ n ih =>
    obtain ⟨_, _, first, rest⟩ := Runs.split ran
    exact ih (addDnsServer_spec sized first).1 rest

theorem RouterCall.sized (c : RouterCall) (sized : m.router.Sized)
    (ran : Runs (alone error) c.program m () m₁) : m₁.router.Sized := by
  cases c with
  | forward message =>
    obtain ⟨_, _, forwarded, done⟩ := Runs.split ran
    obtain ⟨_, rfl⟩ := runs_ret_iff.mp done
    exact forwardRequest_sized sized forwarded
  | add dns =>
    obtain ⟨_, _, added, done⟩ := Runs.split ran
    obtain ⟨_, rfl⟩ := runs_ret_iff.mp done
    exact (addDnsServer_spec sized added).1
  | remove offline => exact removeServers_sized sized ran

theorem AfterCalls.sized (after : AfterCalls m m₁) (sized : m.router.Sized) : m₁.router.Sized := by
  induction after with
  | start => exact sized
  | call _ c ran ih => exact c.sized ih ran

theorem forwardSafe_of_online (sized : m.router.Sized) (online : m.router.serverCnt ≠ 0) :
    ForwardSafe m := by
  intro message error
  obtain ⟨chosen, next, choice, bound⟩ :=
    chooseServer_spec m.router.mode m.router.currServer online
  have inside : chosen.toNat < m.router.servers.length := by
    rw [sized]
    exact UInt8.lt_iff_toNat_lt.mp bound
  have indexed := List.getElem?_eq_getElem inside
  let server := m.router.servers[chosen.toNat]
  let m₁ : Mem := { m with router := { m.router with currServer := next } }
  refine ⟨chosen, next, (error, some server.id.toUInt8), m₁, choice, fun _ => bound, ?_,
    fun empty => absurd empty online⟩
  simp only [forwardRequest, lock, unlock, act, request, bind_eq, pure_eq, call_bind, ret_bind]
  refine .reply () m rfl (.reply m.router m rfl ?_)
  rw [choice]
  refine .reply () m₁ rfl (.reply m₁.router m₁ rfl ?_)
  rw [if_neg online, indexed]
  exact .reply error m₁ rfl (.reply () m₁ rfl .ret)

theorem createServers_runs (address : Nat → Bytes)
    (room : m.router.serverCnt.toNat + n ≤ 255) (sized : m.router.Sized) (i : Nat) :
    ∃ m₁, Runs (alone error) (createServers address i n) m () m₁ := by
  induction n generalizing m i with
  | zero => exact ⟨m, .ret⟩
  | succ n ih =>
    have notFull : m.router.serverCnt ≠ 255 := by
      intro full
      rw [full] at room
      have value : (255 : UInt8).toNat = 255 := rfl
      omega
    let dns := createDnsServer (address i) (UInt16.ofNat i) clientPort (dnsPortNum + UInt16.ofNat i)
    obtain ⟨router, added⟩ := Option.isSome_iff_exists.mp (addServer_isSome notFull dns)
    obtain ⟨sized₁, _, _, _, count⟩ := addServer_spec sized.covered dns added
    let m₁ : Mem := { m with router }
    have first : Runs (alone error) (addDnsServer dns) m 0 m₁ := by
      simp only [addDnsServer, lock, unlock, act, request, bind_eq, pure_eq, call_bind, ret_bind]
      refine .reply () m rfl (.reply () m₁ ?_ (.reply () m₁ rfl .ret))
      change (m.router.addServer dns).map _ = _
      rw [added]
      rfl
    have more : m₁.router.serverCnt.toNat + n ≤ 255 := by
      change router.serverCnt.toNat + n ≤ 255
      rw [count, UInt8.toNat_add]
      simp only [UInt8.reduceToNat]
      omega
    obtain ⟨m₂, rest⟩ := ih more sized₁ (i + 1)
    exact ⟨m₂, first.bind rest⟩

end

/-- An accepted command line starts the router, and in every rotation that any calls then
lead to, forwarding is safe exactly while some server is online. -/
theorem forwardRequest_safe_iff (mode : RouterMode) (address : Nat → Bytes) (coms : UInt16 → Coms)
    (object : Bytes → Server) (accepted : parseCli options = some (0, arguments)) (error : UInt8) :
    (∃ m₀, Runs (alone error) (createGenerator address arguments)
      ⟨coms, createRouter mode, object⟩ () m₀) ∧
    ∀ m₀ m, Runs (alone error) (createGenerator address arguments)
      ⟨coms, createRouter mode, object⟩ () m₀ → AfterCalls m₀ m →
        (ForwardSafe m ↔ m.router.serverCnt ≠ 0) := by
  have few := UInt8.le_iff_toNat_le.mp (parseCli_startingServerCnt accepted)
  simp only [UInt8.reduceToNat] at few
  constructor
  · apply createServers_runs
    · change 0 + arguments.startingServerCnt.toNat ≤ 255
      omega
    · exact createRouter_sized mode
  · intro m₀ m created after
    have sized := after.sized (createServers_sized (createRouter_sized mode) created)
    constructor
    · intro safe empty
      obtain ⟨_, _, _, _, choice, _⟩ := safe [] 0
      rw [empty, chooseServer_empty] at choice
      cases choice
    · exact forwardSafe_of_online sized

def threeServers : Arguments := ⟨some [120], 3, false, false, false, false⟩
def noServers : Arguments := ⟨some [120], 0, false, false, false, false⟩

theorem forwardRequest_safe_three :
    (∃ m₀, Runs (alone 0) (createGenerator (fun _ => []) threeServers)
      (startMem .overload) () m₀) ∧
    ∀ m₀ m, Runs (alone 0) (createGenerator (fun _ => []) threeServers)
      (startMem .overload) () m₀ → AfterCalls m₀ m →
        (ForwardSafe m ↔ m.router.serverCnt ≠ 0) :=
  forwardRequest_safe_iff .overload (fun _ => []) (fun _ => emptyComs 0)
    (fun _ => createDnsServer [] 0 0 0)
    (show parseCli [.t [120]] = some (0, threeServers) by decide) 0

/-- A command line for no servers is accepted, and the first request divides by zero. -/
theorem forward_without_servers :
    parseCli [.t [120], .c [48]] = some (0, noServers) ∧
    Runs (alone 0) (createGenerator (fun _ => []) noServers)
      (startMem .roundRobin) () (startMem .roundRobin) ∧
    ¬ ForwardSafe (startMem .roundRobin) := by
  refine ⟨by decide, .ret, ?_⟩
  intro safe
  obtain ⟨_, _, _, _, choice, _⟩ := safe [] 0
  cases choice

end DnsServer
