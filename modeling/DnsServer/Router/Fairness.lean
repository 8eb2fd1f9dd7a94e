import DnsServer.Process.Turns
import DnsServer.Router.Programs

/-! Which servers get the requests, in both modes, while nobody is added or removed. -/
namespace DnsServer
open Process Program

/-- `sent` are the packets so far. -/
structure Forwarding where
  mem : Mem
  held : Lock → Bool
  sent : List Packet

/-- What a send ends in may depend on all that was sent before. -/
def logging (outcome : List Packet → UInt8) : Handler platform.interface Forwarding
  | e, .lock l => if e.held l then none else some ((), { e with held := Function.update e.held l true })
  | e, .unlock l => some ((), { e with held := Function.update e.held l false })
  | e, .act (.sendPacket portNum message) =>
    some (outcome e.sent, { e with sent := e.sent ++ [⟨portNum, message⟩] })
  | e, .act op => (e.mem.perform silentWorld op).map fun answer => (answer.1, { e with mem := answer.2 })
  | _, _ => none

def forwardAll : List Bytes → Proc (List (UInt8 × Option UInt8))
  | [] => return []
  | message :: messages => do
    let result ← forwardRequest message
    let results ← forwardAll messages
    return result :: results

/-- The places in the rotation that `k` requests go to. -/
def choices (mode : RouterMode) (serverCnt : UInt8) : UInt8 → Nat → List Nat
  | _, 0 => []
  | currServer, k + 1 =>
    match chooseServer mode currServer serverCnt with
    | none => []
    | some (chosenServer, currServer) => chosenServer.toNat :: choices mode serverCnt currServer k

/-- The requests, one after the other, go to the servers at these places, whose ids they return; the mutexes
and the rotation are left as they were. -/
def SendsTo (outcome : List Packet → UInt8) (e : Forwarding) (messages : List Bytes) (places : List Nat) : Prop :=
  ∃ results served e₁, Runs (logging outcome) (forwardAll messages) e results e₁ ∧
    served.map some = places.map (e.mem.router.rotation[·]?) ∧
    e₁.sent = e.sent ++ List.zipWith (fun server message => ⟨server.portNum, message⟩) served messages ∧
    results.map Prod.snd = served.map (fun server => some server.id.toUInt8) ∧
    e₁.held = e.held ∧ e₁.mem.router.rotation = e.mem.router.rotation

section
variable {e : Forwarding}

theorem forwardRequest_logged (outcome : List Packet → UInt8) (message : Bytes) (free : e.held .mutex = false)
    (sized : e.mem.router.Sized)
    (chosen : chooseServer e.mem.router.mode e.mem.router.currServer e.mem.router.serverCnt = some (i, next))
    (inside : i < e.mem.router.serverCnt) :
    ∃ server, e.mem.router.rotation[i.toNat]? = some server ∧
      Runs (logging outcome) (forwardRequest message) e (outcome e.sent, some server.id.toUInt8) { e with
        mem := { e.mem with router := { e.mem.router with currServer := next } }
        sent := e.sent ++ [⟨server.portNum, message⟩] } := by
  have within : i.toNat < e.mem.router.servers.length := by
    rw [sized]
    exact UInt8.lt_iff_toNat_lt.mp inside
  have online : e.mem.router.serverCnt ≠ 0 := by
    intro empty
    rw [empty] at inside
    exact absurd inside UInt8.not_lt_zero
  have stored := List.getElem?_eq_getElem within
  refine ⟨_, (congrArg (·[i.toNat]?) sized.rotation_eq).trans stored, ?_⟩
  let e₁ : Forwarding := { e with held := Function.update e.held .mutex true }
  let e₂ : Forwarding := { e₁ with mem := { e.mem with router := { e.mem.router with currServer := next } } }
  have back : Function.update (Function.update e.held .mutex true) .mutex false = e.held := by
    rw [Function.update_idem, ← free, Function.update_eq_self]
  simp only [forwardRequest, lock, unlock, act, request, bind_eq, pure_eq, call_bind, ret_bind]
  refine .reply () e₁ (by simp [logging, free, e₁]) (.reply e.mem.router e₁ rfl ?_)
  rw [chosen]
  refine .reply () e₂ rfl (.reply e₂.mem.router e₂ rfl ?_)
  rw [if_neg online, stored]
  refine .reply (outcome e.sent) _ rfl (.reply () _ rfl ?_)
  rw [back]
  exact .ret

theorem forwardAll_sends (outcome : List Packet → UInt8) (messages : List Bytes) (free : e.held .mutex = false)
    (sized : e.mem.router.Sized) (online : e.mem.router.serverCnt ≠ 0) :
    SendsTo outcome e messages
      (choices e.mem.router.mode e.mem.router.serverCnt e.mem.router.currServer messages.length) := by
  induction messages generalizing e with
  | nil => exact ⟨[], [], e, .ret, rfl, (List.append_nil _).symm, rfl, rfl, rfl⟩
  | cons message messages ih =>
    obtain ⟨chosen, next, choice, inside⟩ := chooseServer_spec e.mem.router.mode e.mem.router.currServer online
    obtain ⟨server, stored, first⟩ := forwardRequest_logged outcome message free sized choice inside
    let e₁ : Forwarding := { e with
      mem := { e.mem with router := { e.mem.router with currServer := next } }
      sent := e.sent ++ [⟨server.portNum, message⟩] }
    obtain ⟨results, served, e₂, rest, stand, sent, ids, held, rotation⟩ := ih (e := e₁) free sized online
    refine ⟨_ :: results, server :: served, e₂, first.bind (rest.bind .ret), ?_, ?_, ?_, held, rotation⟩
    · rw [List.length_cons, choices, choice, List.map_cons, List.map_cons, stored, stand]
      rfl
    · rw [sent, List.zipWith_cons_cons, ← List.singleton_append, ← List.append_assoc]
    · rw [List.map_cons, List.map_cons, ids]

end

/-! Taking turns. -/

theorem toNat_ne_zero {b : UInt8} (nonzero : b ≠ 0) : 0 < b.toNat := by
  apply Nat.pos_of_ne_zero
  intro zero
  exact nonzero (UInt8.toNat_inj.mp zero)

theorem choices_roundRobin (online : serverCnt ≠ 0) (currServer : UInt8) (k : Nat) :
    choices .roundRobin serverCnt currServer k = turns serverCnt.toNat currServer.toNat k := by
  have positive := toNat_ne_zero online
  have bound := serverCnt.toNat_lt
  induction k generalizing currServer with
  | zero => rfl
  | succ k ih =>
    have next : (UInt8.ofNat ((1 + currServer.toNat) % serverCnt.toNat)).toNat =
        (currServer.toNat + 1) % serverCnt.toNat := by
      have less := Nat.mod_lt (1 + currServer.toNat) positive
      rw [UInt8.toNat_ofNat', Nat.mod_eq_of_lt (by omega), Nat.add_comm]
    rw [choices, chooseServer, if_neg online, turns_succ]
    simp only [UInt8.toNat_mod, ih, next, turns_mod]

/-- In the order of the rotation from the server whose turn it is, so that each server gets one of every
round of requests, and none gets two more than another. -/
theorem roundRobin_fair (outcome : List Packet → UInt8) (messages : List Bytes) (free : e.held .mutex = false)
    (sized : e.mem.router.Sized) (online : e.mem.router.serverCnt ≠ 0) (mode : e.mem.router.mode = .roundRobin) :
    let n := e.mem.router.rotation.length
    let places := turns n e.mem.router.currServer.toNat messages.length
    SendsTo outcome e messages places ∧
    (∀ start i, start + n ≤ messages.length → i < n → ((places.drop start).take n).count i = 1) ∧
    (∀ i j, i < n → j < n → places.count i ≤ places.count j + 1) := by
  intro n places
  have count : n = e.mem.router.serverCnt.toNat := sized.covered.length_rotation
  refine ⟨?_, ?_, fun i j party other => count_turns_le _ _ party other⟩
  · have sends := forwardAll_sends outcome messages free sized online
    rwa [mode, choices_roundRobin online, ← count] at sends
  · intro start i within party
    obtain ⟨rest, whole⟩ := Nat.exists_eq_add_of_le within
    simp only [places]
    rw [whole, Nat.add_assoc, drop_turns, take_turns, count_round _ party]

/-- Three servers in rotation and a turn left over from five. -/
def threeTurns : Forwarding where
  mem := { startMem .roundRobin with
    router := ⟨.roundRobin, [createDnsServer [] 1 0 1, createDnsServer [] 2 0 2, createDnsServer [] 3 0 3], 3, 4⟩ }
  held _ := false
  sent := []

theorem roundRobin_fair_three :
    let n := threeTurns.mem.router.rotation.length
    let places := turns n threeTurns.mem.router.currServer.toNat (List.replicate 4 [1]).length
    SendsTo (fun _ => 0) threeTurns (List.replicate 4 [1]) places ∧
    (∀ start i, start + n ≤ (List.replicate 4 [(1 : UInt8)]).length → i < n →
      ((places.drop start).take n).count i = 1) ∧
    (∀ i j, i < n → j < n → places.count i ≤ places.count j + 1) :=
  roundRobin_fair (e := threeTurns) (fun _ => 0) (List.replicate 4 [1]) rfl rfl (by decide) rfl

/-! Overload: the first server gets what comes after one request for each. -/

/-- The number of requests after which `curr_server` is 0 again: the byte wraps at 256. -/
def overloadCycle (n : Nat) : Nat := min (2 * n) 256

/-- The place of the request that finds `curr_server` at `turn`. -/
def overloadPlace (n turn : Nat) : Nat := if turn < n then turn else 0

theorem overloadCycle_bounds (n : Nat) : overloadCycle n ≤ 256 ∧ overloadCycle n ≤ 2 * n := by
  simp only [overloadCycle]
  omega

/-- One request: below the count the place is the turn itself; from the count on it is the first. -/
theorem chooseServer_overload (online : serverCnt ≠ 0) (less : turn < overloadCycle serverCnt.toNat) :
    chooseServer .overload (UInt8.ofNat turn) serverCnt =
      some (UInt8.ofNat (overloadPlace serverCnt.toNat turn),
        UInt8.ofNat ((turn + 1) % overloadCycle serverCnt.toNat)) := by
  have positive := toNat_ne_zero online
  have bound := serverCnt.toNat_lt
  obtain ⟨byte, twice⟩ := overloadCycle_bounds serverCnt.toNat
  have curr : (UInt8.ofNat turn).toNat = turn := by
    rw [UInt8.toNat_ofNat']
    omega
  by_cases below : turn < serverCnt.toNat
  · have under : ¬ UInt8.ofNat turn ≥ serverCnt := by
      rw [ge_iff_le, UInt8.le_iff_toNat_le, curr]
      omega
    have next : UInt8.ofNat turn + 1 = UInt8.ofNat (turn + 1) := by
      apply UInt8.toNat_inj.mp
      simp [curr]
    have room : turn + 1 < overloadCycle serverCnt.toNat := by
      simp only [overloadCycle]
      omega
    rw [chooseServer, if_neg under, overloadPlace, if_pos below, Nat.mod_eq_of_lt room, next]
  · have past : UInt8.ofNat turn ≥ serverCnt := by
      rw [ge_iff_le, UInt8.le_iff_toNat_le, curr]
      omega
    -- With more than 128 servers the remainder does nothing, and the byte wraps by itself.
    have next : UInt8.ofNat ((1 + turn) % (serverCnt.toNat * 2)) =
        UInt8.ofNat ((turn + 1) % overloadCycle serverCnt.toNat) := by
      by_cases few : 2 * serverCnt.toNat ≤ 256
      · rw [overloadCycle, Nat.min_eq_left few, Nat.add_comm, Nat.mul_comm]
      · rw [Nat.mod_eq_of_lt (by omega), overloadCycle, Nat.min_eq_right (by omega), Nat.add_comm]
        apply UInt8.toNat_inj.mp
        rw [UInt8.toNat_ofNat', UInt8.toNat_ofNat', Nat.mod_mod]
    rw [chooseServer, if_pos past, if_neg (by omega), overloadPlace, if_neg below, curr, next]
    rfl

theorem choices_overload (online : serverCnt ≠ 0) (c k : Nat) :
    choices .overload serverCnt (UInt8.ofNat (c % overloadCycle serverCnt.toNat)) k =
      (turns (overloadCycle serverCnt.toNat) c k).map (overloadPlace serverCnt.toNat) := by
  have positive := toNat_ne_zero online
  have bound := serverCnt.toNat_lt
  induction k generalizing c with
  | zero => rfl
  | succ k ih =>
    have cycle : 0 < overloadCycle serverCnt.toNat := by
      simp only [overloadCycle]
      omega
    have choice := chooseServer_overload online (Nat.mod_lt c cycle)
    rw [Nat.mod_add_mod] at choice
    have place : (UInt8.ofNat (overloadPlace serverCnt.toNat (c % overloadCycle serverCnt.toNat))).toNat =
        overloadPlace serverCnt.toNat (c % overloadCycle serverCnt.toNat) := by
      rw [UInt8.toNat_ofNat', overloadPlace]
      split <;> omega
    rw [choices, choice, turns_succ, List.map_cons]
    simp only [place, ih]

/-- The block has `n + 1` requests for the first server and one for every other. -/
def TargetsFirst (n : Nat) (block : List Nat) : Prop :=
  block.count 0 = n + 1 ∧ ∀ i, 0 < i → i < n → block.count i = 1

/-- A whole cycle of `2 * n` turns. -/
theorem targetsFirst_cycle (positive : 0 < n) (c : Nat) :
    TargetsFirst n ((turns (2 * n) c (2 * n)).map (overloadPlace n)) := by
  have places : ((List.range (2 * n)).map (overloadPlace n)) = List.range n ++ List.replicate n 0 := by
    rw [Nat.two_mul, List.range_add, List.map_append, List.map_map]
    congr 1
    · conv_rhs => rw [← List.map_id (List.range n)]
      apply List.map_congr_left
      intro j member
      exact if_pos (List.mem_range.mp member)
    · rw [← List.length_range (n := n), ← List.map_const', List.length_range]
      apply List.map_congr_left
      intro j _
      exact if_neg (Nat.not_lt.mpr (Nat.le_add_right n j))
  have counts : ∀ i, ((turns (2 * n) c (2 * n)).map (overloadPlace n)).count i =
      (List.range n).count i + (List.replicate n 0).count i := by
    intro i
    rw [((turns_perm (2 * n) c).map _).count_eq, places, List.count_append]
  have listed : ∀ i, i < n → (List.range n).count i = 1 := fun i less =>
    List.count_eq_one_of_mem List.nodup_range (List.mem_range.mpr less)
  constructor
  · rw [counts, listed 0 positive, List.count_replicate_self, Nat.add_comm]
  · intro i later less
    rw [counts, listed i less, List.count_eq_zero.mpr fun member => ?_]
    exact absurd (List.eq_of_mem_replicate member) (Nat.ne_of_gt later)

/-- A cycle that the wrap of the byte cut short: the second server gets two of the first block. -/
theorem not_targetsFirst_wrapped (many : 128 < n) (byte : n ≤ 256) :
    ¬ TargetsFirst n ((turns 256 0 (2 * n)).map (overloadPlace n)) := by
  rintro ⟨_, each⟩
  have once := each 1 (by omega) (by omega)
  have place : overloadPlace n 1 = 1 := if_pos (by omega)
  obtain ⟨more, twice⟩ := Nat.exists_eq_add_of_le (show 258 ≤ 2 * n by omega)
  have again : turns 256 (0 + 256) (more + 1 + 1) = 0 :: 1 :: turns 256 2 more := by
    rw [← turns_mod, turns_succ, turns_succ]
  have whole : turns 256 0 (2 * n) = turns 256 0 256 ++ (0 :: 1 :: turns 256 2 more) := by
    rw [twice, show 258 + more = 256 + (more + 1 + 1) from by omega, turns_append, again]
  have first : 1 ≤ ((turns 256 0 256).map (overloadPlace n)).count 1 := by
    apply List.count_pos_iff.mpr
    refine List.mem_map.mpr ⟨1, ?_, place⟩
    exact List.count_pos_iff.mp (by rw [count_round 0 (by omega)]; exact Nat.one_pos)
  rw [whole, List.map_append, List.count_append, List.map_cons, List.map_cons, place, List.count_cons,
    List.count_cons_self] at once
  omega

/-- From the first server on, every block of two requests for each server has `n + 1` for the first and one for
every other exactly when there are no more than 128. -/
theorem overload_targets_first_iff (outcome : List Packet → UInt8) (free : e.held .mutex = false)
    (sized : e.mem.router.Sized) (online : e.mem.router.serverCnt ≠ 0) (mode : e.mem.router.mode = .overload)
    (first : e.mem.router.currServer = 0) :
    let n := e.mem.router.rotation.length
    let places := choices .overload e.mem.router.serverCnt 0
    (∀ messages, SendsTo outcome e messages (places messages.length)) ∧
    ((∀ blocks, TargetsFirst n ((places (2 * n * blocks + 2 * n)).drop (2 * n * blocks))) ↔ n ≤ 128) := by
  intro n places
  have count : n = e.mem.router.serverCnt.toNat := sized.covered.length_rotation
  have positive : 0 < n := count ▸ toNat_ne_zero online
  have bound : n < 256 := count ▸ e.mem.router.serverCnt.toNat_lt
  have cycles : ∀ k, places k = (turns (overloadCycle n) 0 k).map (overloadPlace n) := by
    intro k
    rw [count, ← choices_overload online 0 k, Nat.zero_mod]
    rfl
  constructor
  · intro messages
    have sends := forwardAll_sends outcome messages free sized online
    rwa [mode, first] at sends
  · constructor
    · intro targets
      by_contra many
      have one := targets 0
      rw [cycles, Nat.mul_zero, Nat.zero_add, List.drop_zero, overloadCycle, Nat.min_eq_right (by omega)] at one
      exact not_targetsFirst_wrapped (by omega) (by omega) one
    · intro few blocks
      rw [cycles, overloadCycle, Nat.min_eq_left (by omega), ← List.map_drop, drop_turns]
      exact targetsFirst_cycle positive _

/-- Two servers in rotation. -/
def twoOverloaded : Forwarding where
  mem := { startMem .overload with
    router := ⟨.overload, [createDnsServer [] 1 0 1, createDnsServer [] 2 0 2], 2, 0⟩ }
  held _ := false
  sent := []

theorem overload_targets_first_two :
    let n := twoOverloaded.mem.router.rotation.length
    let places := choices .overload twoOverloaded.mem.router.serverCnt 0
    (∀ messages, SendsTo (fun _ => 0) twoOverloaded messages (places messages.length)) ∧
    ((∀ blocks, TargetsFirst n ((places (2 * n * blocks + 2 * n)).drop (2 * n * blocks))) ↔ n ≤ 128) :=
  overload_targets_first_iff (e := twoOverloaded) (fun _ => 0) rfl rfl (by decide) rfl rfl

/-- With 129 servers the first block of 258 requests is not as it should be. -/
theorem overload_wraps : ¬ TargetsFirst 129 (choices .overload 129 0 258) := by
  have cycle := choices_overload (show (129 : UInt8) ≠ 0 by decide) 0 258
  have wrapped := not_targetsFirst_wrapped (n := 129) (by decide) (by decide)
  rw [show choices .overload 129 0 258 = _ from cycle]
  exact wrapped

/-- One request from any turn that removals have left brings the turn back into the cycle. -/
theorem choices_settle (online : serverCnt ≠ 0) (few : serverCnt.toNat ≤ 128) (currServer : UInt8) (k : Nat) :
    ∃ place, choices .overload serverCnt currServer (k + 1) =
      place :: (turns (2 * serverCnt.toNat) (currServer.toNat + 1) k).map (overloadPlace serverCnt.toNat) := by
  have positive := toNat_ne_zero online
  have bound := currServer.toNat_lt
  have cycle : overloadCycle serverCnt.toNat = 2 * serverCnt.toNat := Nat.min_eq_left (by omega)
  suffices next : ∃ chosen, chooseServer .overload currServer serverCnt =
      some (chosen, UInt8.ofNat ((currServer.toNat + 1) % overloadCycle serverCnt.toNat)) by
    obtain ⟨chosen, choice⟩ := next
    have rest := choices_overload online (currServer.toNat + 1) k
    rw [cycle] at rest choice
    refine ⟨chosen.toNat, ?_⟩
    rw [choices, choice]
    exact congrArg (chosen.toNat :: ·) rest
  rw [cycle]
  by_cases past : currServer ≥ serverCnt
  · refine ⟨0, ?_⟩
    rw [chooseServer, if_pos past, if_neg (by omega), Nat.add_comm 1, Nat.mul_comm]
  · have below : currServer.toNat < serverCnt.toNat := by
      rw [ge_iff_le, UInt8.le_iff_toNat_le] at past
      omega
    refine ⟨currServer, ?_⟩
    rw [chooseServer, if_neg past, Nat.mod_eq_of_lt (by omega), UInt8.ofNat_add, UInt8.ofNat_toNat]
    rfl

/-- Whatever turn is left, from the second request on any window of two requests for each server has `n + 1` for the
first and one for every other, when there are no more than 128. -/
theorem overload_settles (outcome : List Packet → UInt8) (free : e.held .mutex = false) (sized : e.mem.router.Sized)
    (online : e.mem.router.serverCnt ≠ 0) (mode : e.mem.router.mode = .overload)
    (few : e.mem.router.rotation.length ≤ 128) :
    let n := e.mem.router.rotation.length
    let places := choices .overload e.mem.router.serverCnt e.mem.router.currServer
    (∀ messages, SendsTo outcome e messages (places messages.length)) ∧
    (∀ start k, 0 < start → start + 2 * n ≤ k → TargetsFirst n (((places k).drop start).take (2 * n))) := by
  intro n places
  have count : n = e.mem.router.serverCnt.toNat := sized.covered.length_rotation
  constructor
  · intro messages
    have sends := forwardAll_sends outcome messages free sized online
    rwa [mode] at sends
  · intro start k later within
    obtain ⟨before, rfl⟩ := Nat.exists_eq_add_of_lt later
    obtain ⟨rest, rfl⟩ := Nat.exists_eq_add_of_le within
    obtain ⟨place, chosen⟩ := choices_settle online (count ▸ few) e.mem.router.currServer (before + (2 * n + rest))
    have requests : 0 + before + 1 + 2 * n + rest = before + (2 * n + rest) + 1 := by omega
    simp only [places]
    rw [requests, chosen, ← count, Nat.zero_add, List.drop_succ_cons, ← List.map_drop, drop_turns, ← List.map_take,
      take_turns]
    exact targetsFirst_cycle (count ▸ toNat_ne_zero online) _

/-- Two servers in rotation, and a turn left over from six. -/
def twoLeft : Forwarding := { twoOverloaded with
  mem := { startMem .overload with
    router := ⟨.overload, [createDnsServer [] 1 0 1, createDnsServer [] 2 0 2], 2, 11⟩ } }

theorem overload_settles_two :
    let n := twoLeft.mem.router.rotation.length
    let places := choices .overload twoLeft.mem.router.serverCnt twoLeft.mem.router.currServer
    (∀ messages, SendsTo (fun _ => 0) twoLeft messages (places messages.length)) ∧
    (∀ start k, 0 < start → start + 2 * n ≤ k → TargetsFirst n (((places k).drop start).take (2 * n))) :=
  overload_settles (e := twoLeft) (fun _ => 0) rfl rfl (by decide) rfl (by decide)

end DnsServer
