import DnsServer.Dns.Server

/-! The router's rotation: the array of servers and the choice of the next one. -/
namespace DnsServer

inductive RouterMode where
  | overload
  | roundRobin
  deriving DecidableEq

/-- `servers` holds the allocated elements of the array. -/
structure Router where
  mode : RouterMode
  servers : List Server
  serverCnt : UInt8
  currServer : UInt8
  deriving DecidableEq

/-- The servers in rotation. -/
def Router.rotation (r : Router) : List Server := r.servers.take r.serverCnt.toNat

/-- The TCP ports of the servers in rotation, as the router announces them. -/
def Router.ports (r : Router) : List UInt16 := r.rotation.map (·.tcpPortNum)

def createRouter (mode : RouterMode) : Router := ⟨mode, [], 0, 0⟩

/-- The chosen index and the next `curr_server`; `none` is a remainder by zero. -/
def chooseServer (mode : RouterMode) (currServer serverCnt : UInt8) : Option (UInt8 × UInt8) :=
  match mode with
  | .roundRobin =>
    if serverCnt = 0 then none
    else some (currServer % serverCnt, UInt8.ofNat ((1 + currServer.toNat) % serverCnt.toNat))
  | .overload =>
    if currServer ≥ serverCnt then
      if serverCnt.toNat * 2 = 0 then none
      else some (0, UInt8.ofNat ((1 + currServer.toNat) % (serverCnt.toNat * 2)))
    else some (currServer, currServer + 1)

theorem chooseServer_spec (mode : RouterMode) (currServer : UInt8) (online : serverCnt ≠ 0) :
    ∃ chosen next, chooseServer mode currServer serverCnt = some (chosen, next) ∧
      chosen < serverCnt := by
  have positive : 0 < serverCnt.toNat := by
    apply Nat.pos_of_ne_zero
    intro zero
    exact online (UInt8.toNat_inj.mp zero)
  cases mode with
  | roundRobin =>
    refine ⟨_, _, by simp only [chooseServer, if_neg online]; rfl, ?_⟩
    rw [UInt8.lt_iff_toNat_lt, UInt8.toNat_mod]
    exact Nat.mod_lt _ positive
  | overload =>
    by_cases wrapped : currServer ≥ serverCnt
    · exact ⟨0, _, by simp only [chooseServer, if_pos wrapped, if_neg (show ¬ serverCnt.toNat * 2 = 0 by omega)]; rfl,
        UInt8.lt_iff_toNat_lt.mpr positive⟩
    · exact ⟨currServer, _, by simp only [chooseServer, if_neg wrapped]; rfl, UInt8.not_le.mp wrapped⟩

theorem chooseServer_empty (mode : RouterMode) (currServer : UInt8) :
    chooseServer mode currServer 0 = none := by
  cases mode with
  | roundRobin => rfl
  | overload => simp [chooseServer]

/-- The array grows by one element, which takes the new server. The store is outside
the array when the count wraps. -/
def Router.addServer (r : Router) (dns : Server) : Option Router :=
  let serverCnt := r.serverCnt + 1
  if serverCnt = 0 then none
  else some { r with serverCnt, servers := r.servers.take (serverCnt.toNat - 1) ++ [dns] }

/-- `servers[i] = servers[i + 1]` for `n` elements from `i` on. -/
def shiftServers (servers : List Server) (i : Nat) : Nat → Option (List Server)
  | 0 => some servers
  | n + 1 => do
    let next ← servers[i + 1]?
    shiftServers (servers.set i next) (i + 1) n

/-- The loop of `remove_server` over `n` elements from `i` on, and whether it deleted one. -/
def deleteServer (dnsId : UInt8) (servers : List Server) (i : Nat) :
    Nat → Option (List Server × Bool)
  | 0 => some (servers, false)
  | n + 1 => do
    let server ← servers[i]?
    if server.id = dnsId.toUInt16 then return (← shiftServers servers i n, true)
    else deleteServer dnsId servers (i + 1) n

/-- `none` is an access outside the array. -/
def Router.shiftOut (r : Router) (dnsId : UInt8) : Option (Bool × Router) := do
  let (servers, deleted) ← deleteServer dnsId r.servers 0 r.serverCnt.toNat
  return (deleted, { r with servers, serverCnt := if deleted then r.serverCnt - 1 else r.serverCnt })

def Router.shrinkServers (r : Router) : Router :=
  { r with servers := r.servers.take r.serverCnt.toNat }

/-- Between calls the array has one element for each server in rotation. -/
def Router.Sized (r : Router) : Prop := r.servers.length = r.serverCnt.toNat

theorem Router.Sized.rotation_eq {r : Router} (sized : r.Sized) : r.rotation = r.servers :=
  List.take_of_length_le (Nat.le_of_eq sized)

/-- The count stays within the array, also in the middle of a removal. -/
def Router.Covered (r : Router) : Prop := r.serverCnt.toNat ≤ r.servers.length

theorem Router.Sized.covered {r : Router} (sized : r.Sized) : r.Covered := Nat.le_of_eq sized.symm

theorem Router.Covered.length_rotation {r : Router} (covered : r.Covered) :
    r.rotation.length = r.serverCnt.toNat :=
  List.length_take_of_le covered

theorem shrinkServers_spec {r : Router} (covered : r.Covered) :
    r.shrinkServers.Sized ∧ r.shrinkServers.rotation = r.rotation := by
  constructor
  · exact covered.length_rotation
  · simp [Router.rotation, Router.shrinkServers]

/-- A small id comes back from its byte. -/
theorem Server.id_of_byte {server : Server} (small : server.id.toNat < 256) :
    server.id.toUInt8.toUInt16 = server.id := by
  apply UInt16.toNat_inj.mp
  rw [UInt8.toNat_toUInt16, UInt16.toNat_toUInt8, Nat.mod_eq_of_lt small]

theorem createRouter_sized (mode : RouterMode) : (createRouter mode).Sized := rfl

theorem addServer_spec {r : Router} (covered : r.Covered) (dns : Server)
    (added : r.addServer dns = some r₁) :
    r₁.Sized ∧ r₁.rotation = r.rotation ++ [dns] ∧ r₁.mode = r.mode ∧
      r₁.currServer = r.currServer ∧ r₁.serverCnt = r.serverCnt + 1 := by
  simp only [Router.addServer] at added
  split at added
  · cases added
  · next nonzero =>
    cases added
    have bound := r.serverCnt.toNat_lt
    have notFull : r.serverCnt.toNat ≠ 255 := by
      intro full
      apply nonzero
      apply UInt8.toNat_inj.mp
      simp [full]
    have count : (r.serverCnt + 1).toNat = r.serverCnt.toNat + 1 := by
      simp only [UInt8.toNat_add, UInt8.reduceToNat]
      omega
    have kept : r.servers.take ((r.serverCnt + 1).toNat - 1) = r.rotation := by
      rw [count, Nat.add_sub_cancel, Router.rotation]
    have grown : Router.Sized { r with
        serverCnt := r.serverCnt + 1
        servers := r.servers.take ((r.serverCnt + 1).toNat - 1) ++ [dns] } := by
      simp only [Router.Sized]
      rw [kept, List.length_append, List.length_singleton, count, covered.length_rotation]
    refine ⟨grown, ?_, rfl, rfl, rfl⟩
    rw [grown.rotation_eq]
    exact congrArg (· ++ [dns]) kept

theorem addServer_isSome {r : Router} (room : r.serverCnt ≠ 255) (dns : Server) :
    (r.addServer dns).isSome := by
  have nonzero : r.serverCnt + 1 ≠ 0 := by
    intro wraps
    apply room
    have values := congrArg UInt8.toNat wraps
    simp only [UInt8.toNat_add, UInt8.reduceToNat] at values
    apply UInt8.toNat_inj.mp
    have bound := r.serverCnt.toNat_lt
    simp only [UInt8.reduceToNat]
    omega
  simp [Router.addServer, nonzero]

/-- The shift drops the element it starts at and leaves the last one twice; it does not
reach the elements after the count. -/
theorem shiftServers_spec (before : List Server) (gone : Server) (after extra : List Server) :
    ∃ last, shiftServers (before ++ gone :: (after ++ extra)) before.length after.length =
      some (before ++ after ++ last :: extra) := by
  induction after generalizing before gone with
  | nil => exact ⟨gone, by simp [shiftServers]⟩
  | cons next after ih =>
    have read : (before ++ gone :: (next :: after ++ extra))[before.length + 1]? = some next := by simp
    have stored : (before ++ gone :: (next :: after ++ extra)).set before.length next =
        (before ++ [next]) ++ next :: (after ++ extra) := by simp
    obtain ⟨last, shifted⟩ := ih (before ++ [next]) next
    refine ⟨last, ?_⟩
    simp only [List.length_cons, shiftServers, read, Option.bind_eq_bind, Option.bind_some, stored]
    rw [List.length_append, List.length_singleton] at shifted
    simpa using shifted

/-- The loop deletes the first match, or changes nothing. -/
theorem deleteServer_spec (dnsId : UInt8) (before after extra : List Server) :
    (∃ last, deleteServer dnsId (before ++ (after ++ extra)) before.length after.length =
      some (before ++ after.eraseP (·.id = dnsId.toUInt16) ++ last :: extra, true) ∧
      ∃ server ∈ after, server.id = dnsId.toUInt16) ∨
    (deleteServer dnsId (before ++ (after ++ extra)) before.length after.length =
        some (before ++ (after ++ extra), false) ∧
      ∀ server ∈ after, server.id ≠ dnsId.toUInt16) := by
  induction after generalizing before with
  | nil => exact .inr ⟨rfl, by simp⟩
  | cons server after ih =>
    have read : (before ++ (server :: after ++ extra))[before.length]? = some server := by simp
    simp only [List.length_cons, deleteServer, read, Option.bind_eq_bind, Option.bind_some]
    by_cases matched : server.id = dnsId.toUInt16
    · obtain ⟨last, shifted⟩ := shiftServers_spec before server after extra
      rw [if_pos matched, List.cons_append, shifted]
      exact .inl ⟨last, by simp [matched], server, by simp, matched⟩
    · rw [if_neg matched]
      have step := ih (before ++ [server])
      rw [List.length_append, List.length_singleton, List.append_assoc, List.singleton_append] at step
      rcases step with ⟨last, deleted, found⟩ | ⟨kept, missing⟩
      · refine .inl ⟨last, ?_, ?_⟩
        · rw [List.cons_append, deleted]
          simp [matched]
        · obtain ⟨other, member, same⟩ := found
          exact ⟨other, List.mem_cons_of_mem _ member, same⟩
      · exact .inr ⟨kept, List.forall_mem_cons.mpr ⟨matched, missing⟩⟩

/-- The same for the whole array: what is after the count stays. -/
theorem deleteServer_rotation {r : Router} (covered : r.Covered) (dnsId : UInt8) :
    (∃ last, deleteServer dnsId r.servers 0 r.serverCnt.toNat =
      some (r.rotation.eraseP (·.id = dnsId.toUInt16) ++ last :: r.servers.drop r.serverCnt.toNat, true) ∧
      ∃ server ∈ r.rotation, server.id = dnsId.toUInt16) ∨
    (deleteServer dnsId r.servers 0 r.serverCnt.toNat = some (r.servers, false) ∧
      ∀ server ∈ r.rotation, server.id ≠ dnsId.toUInt16) := by
  have loop := deleteServer_spec dnsId [] r.rotation (r.servers.drop r.serverCnt.toNat)
  have parts : r.rotation ++ r.servers.drop r.serverCnt.toNat = r.servers := List.take_append_drop _ _
  rw [List.nil_append, List.nil_append, List.length_nil, covered.length_rotation, parts] at loop
  exact loop

/-- The shift reports whether there was such a server. -/
theorem shiftOut_deleted {r : Router} (covered : r.Covered) (shifted : r.shiftOut dnsId = some (deleted, r₁)) :
    deleted = true ↔ ∃ server ∈ r.rotation, server.id = dnsId.toUInt16 := by
  rcases deleteServer_rotation covered dnsId with ⟨last, found, member⟩ | ⟨kept, missing⟩
  · simp only [Router.shiftOut, found] at shifted
    cases shifted
    exact iff_of_true rfl member
  · simp only [Router.shiftOut, kept] at shifted
    cases shifted
    constructor
    · rintro ⟨⟩
    · rintro ⟨server, member, same⟩
      exact absurd same (missing server member)

/-- Removal in the rotation: the first match goes, and the array is yet to shrink. -/
theorem shiftOut_spec {r : Router} (covered : r.Covered) (dnsId : UInt8) :
    ∃ deleted r₁, r.shiftOut dnsId = some (deleted, r₁) ∧
      r₁.mode = r.mode ∧ r₁.currServer = r.currServer ∧
      r₁.rotation = r.rotation.eraseP (·.id = dnsId.toUInt16) ∧
      r₁.Covered ∧ (deleted = false → r₁ = r) := by
  rcases deleteServer_rotation covered dnsId with ⟨last, deleted, server, member, same⟩ | ⟨kept, missing⟩
  · have matched : decide (server.id = dnsId.toUInt16) = true := by simpa using same
    have fewer := List.length_eraseP_of_mem (p := (·.id = dnsId.toUInt16)) member matched
    have nonempty := List.length_pos_of_mem member
    rw [covered.length_rotation] at fewer nonempty
    have count : (r.serverCnt - 1).toNat = r.serverCnt.toNat - 1 := by
      rw [UInt8.toNat_sub_of_le]
      · rfl
      · exact UInt8.le_iff_toNat_le.mpr nonempty
    let r₁ : Router := { r with
      servers := r.rotation.eraseP (·.id = dnsId.toUInt16) ++
        last :: r.servers.drop r.serverCnt.toNat
      serverCnt := r.serverCnt - 1 }
    refine ⟨true, r₁, by simp only [Router.shiftOut, deleted]; rfl, rfl, rfl, ?_, ?_, by simp⟩
    · change (_ ++ last :: _).take (r.serverCnt - 1).toNat = _
      rw [List.take_append_of_le_length (by omega), List.take_of_length_le (by omega)]
    · change (r.serverCnt - 1).toNat ≤ (_ ++ last :: _).length
      rw [List.length_append, count]
      omega
  · refine ⟨false, r, by simp only [Router.shiftOut, kept]; rfl, rfl, rfl, ?_, covered, fun _ => rfl⟩
    rw [List.eraseP_of_forall_not]
    intro server member
    simpa using missing server member

end DnsServer
