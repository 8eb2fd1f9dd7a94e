import DnsServer.Cluster.Versions

/-! A server that goes online from wherever it stands, in the rotation or out of it. -/
namespace DnsServer
open Process Program

/-- The network of a joiner where a member that is not `reachable` takes no bytes. -/
def rejoiningNetwork (reachable : UInt16 → Bool) : Network Joining
  | (m, n), .connect port =>
    if n.started && !reachable port then some (⟨2, .client⟩, m, n) else joiningNetwork (m, n) (.connect port)
  | e, .send socket bytes =>
    if socket = ⟨2, .client⟩ then some (false, e) else joiningNetwork e (.send socket bytes)
  | e, other => joiningNetwork e other

abbrev rejoining (reachable : UInt16 → Bool) : Handler platform.interface (Mem × Joining) :=
  system joiningWorld (rejoiningNetwork reachable)

/-- The server is a copy of another member and a member itself, once. -/
structure Rejoined (x : UInt16) (m : Mem) : Prop where
  copy : ∃ q ∈ m.ports, q ≠ x ∧ (m.coms x).table = (m.coms q).table ∧
    (m.coms x).versionNum = (m.coms q).versionNum
  once : m.ports.count x = 1

/-- The member at `p` hands over its whole table, or what it hands over happens to be another member's. -/
def Supplies (m : Mem) (p : UInt16) : Prop :=
  (m.coms p).ipHash.entries.length ≤ 255 ∨
    ∃ q ∈ m.ports, (m.coms p).handedTable = (m.coms q).table ∧ (m.coms p).handedVersion = (m.coms q).versionNum

section
variable {reachable : UInt16 → Bool} {m : Mem} {n : Joining}

/-- With a member that it has reached the joiner talks as if all were reachable. -/
theorem rejoining_agrees (e : Mem × Joining) (op : platform.Call) (spoken : speaks ⟨1, .client⟩ op) :
    rejoining reachable e op = joining e op := by
  obtain ⟨m, n⟩ := e
  cases op with
  | send | recv | close =>
    cases spoken
    rfl
  | act => rfl
  | _ => exact spoken.elim

theorem rejoining_connects (m : Mem) (reached : reachable p = true) :
    rejoining reachable (m, n) (.connect p) = joining (m, n) (.connect p) := by
  simp only [rejoining, system, rejoiningNetwork, reached, Bool.not_true, Bool.and_false,
    Bool.false_eq_true, if_false, joining]

theorem requestHosts_reached (reached : reachable p = true) (other : x ≠ p)
    (neat : Neat (m.coms p).ipHash.entries) (started : n.started = true) :
    ∃ c n₁, Runs (rejoining reachable) (requestHosts x p) (m, n) 0 (m.setComs x c, n₁) ∧
      c.table = (m.coms p).handedTable ∧ c.versionNum = (m.coms p).handedVersion := by
  obtain ⟨c, n₁, ran, table, version⟩ := requestHosts_hands x p other neat n started
  obtain ⟨k, program, speaks⟩ := requestHosts_speaks x p
  refine ⟨c, n₁, ?_, table, version⟩
  rw [program] at ran ⊢
  obtain ⟨_, _, cleared, connecting⟩ := runs_call_iff.mp ran
  cases cleared
  obtain ⟨s, _, connected, talk⟩ := runs_call_iff.mp connecting
  have socket : s = ⟨1, .client⟩ := by
    simp only [joining, system, joiningNetwork, started, if_true] at connected
    cases connected
    rfl
  rw [socket] at connected talk
  exact .call rfl (.call ((rejoining_connects _ reached).trans connected)
    ((speaks _).transfer rejoining_agrees talk))

/-- A member that is not reachable costs the joiner its table and nothing else. -/
theorem requestHosts_refused (x : UInt16) (refused : reachable p = false) (started : n.started = true) :
    Runs (rejoining reachable) (requestHosts x p) (m, n) 1
      (m.setComs x { m.coms x with ipHash := ∅ }, n) := by
  let m₁ := m.setComs x { m.coms x with ipHash := ∅ }
  have connects : rejoining reachable (m₁, n) (.connect p) = some (⟨2, .client⟩, m₁, n) := by
    simp only [rejoining, system, rejoiningNetwork, refused, started, Bool.not_false, Bool.and_self, if_true]
  simp only [requestHosts, connectToTcp, act, send, request, bind_eq, pure_eq, call_bind, ret_bind]
  exact .reply () (m₁, n) rfl (.reply _ _ connects (.reply false (m₁, n) rfl .ret))

theorem requestAny_refused (x : UInt16) (none : ports.find? reachable = none) (started : n.started = true) :
    ∃ m₁, Runs (rejoining reachable) (requestAny x ports) (m, n) false (m₁, n) := by
  induction ports generalizing m with
  | nil => exact ⟨m, .ret⟩
  | cons p ports ih =>
    rw [List.find?_cons] at none
    split at none
    · cases none
    · next refused =>
      obtain ⟨m₁, ran⟩ := @ih (m.setComs x { m.coms x with ipHash := ∅ }) none
      refine ⟨m₁, .bind (requestHosts_refused x refused started) ?_⟩
      rw [if_neg (by decide)]
      exact ran

/-- The joiner copies the first member that it reaches. -/
theorem requestAny_reached (found : ports.find? reachable = some p) (other : x ≠ p)
    (neat : Neat (m.coms p).ipHash.entries) (started : n.started = true) :
    ∃ c n₁, Runs (rejoining reachable) (requestAny x ports) (m, n) true (m.setComs x c, n₁) ∧
      c.table = (m.coms p).handedTable ∧ c.versionNum = (m.coms p).handedVersion := by
  induction ports generalizing m with
  | nil => cases found
  | cons q ports ih =>
    rw [List.find?_cons] at found
    split at found
    · next reached =>
      cases found
      obtain ⟨c, n₁, ran, handed⟩ := requestHosts_reached reached other neat started
      refine ⟨c, n₁, .bind ran ?_, handed⟩
      rw [if_pos rfl]
      exact .ret
    · next refused =>
      let m₁ := m.setComs x { m.coms x with ipHash := ∅ }
      have same : m₁.coms p = m.coms p := setComs_other m other.symm _
      obtain ⟨c, n₁, ran, handed⟩ := @ih m₁ found (by rw [same]; exact neat)
      rw [setComs_setComs] at ran
      rw [same] at handed
      refine ⟨c, n₁, .bind (requestHosts_refused x refused started) ?_, handed⟩
      rw [if_neg (by decide)]
      exact ran

/-- The router's socket is served as if all were reachable. -/
theorem rejoining_router (e : Mem × Joining) (op : platform.Call) (used : usedSocket op = some ⟨0, .client⟩) :
    rejoining reachable e op = joining e op := by
  obtain ⟨m, n⟩ := e
  cases op with
  | send | recv | close =>
    cases used
    rfl
  | _ => cases used

/-! The call leaves the rotation alone, whatever the tables hold. -/

def sparesRouter : platform.Call → Prop
  | .act op => op.SparesRouter
  | _ => True

theorem spares_of_listens (op : platform.Call) (listened : listens s op) : sparesRouter op := by
  cases op with
  | act => exact listened
  | _ => trivial

theorem spares_of_speaks (op : platform.Call) (spoken : speaks s op) : sparesRouter op := by
  cases op with
  | act => exact spoken
  | _ => trivial

theorem requestAny_spares (x : UInt16) (ports : List UInt16) : (requestAny x ports).Asks sparesRouter := by
  induction ports with
  | nil => trivial
  | cons port ports ih =>
    obtain ⟨k, program, speaks⟩ := requestHosts_speaks x port
    have requests : (requestHosts x port).Asks sparesRouter := by
      rw [program]
      exact .call trivial fun _ => .call trivial fun s => (speaks s).mono spares_of_speaks
    refine requests.bind fun code => ?_
    split
    · trivial
    · exact ih

theorem updateAndOnline_spares (x : Server) : (updateAndOnline x).Asks sparesRouter := by
  simp only [updateAndOnline, connectToTcp, send, close, request, bind_eq, pure_eq, call_bind, ret_bind]
  refine .call trivial fun s => ?_
  refine (((recvUnchecked_hears s).mono listens_of_hears).mono spares_of_listens).bind fun portCnt => ?_
  refine ((recievePorts_listens s _ _).mono spares_of_listens).bind fun got => ?_
  cases got with
  | none => trivial
  | some ports =>
    refine (requestAny_spares _ ports).bind fun found => ?_
    split
    · exact .call trivial fun _ => trivial
    · exact .call trivial fun _ => .call trivial fun _ => trivial

theorem joiningNetwork_mem (op : platform.Call) (r : op.Reply) (asked : joiningNetwork (m, n) op = some (r, m₁, n₁)) :
    m₁ = m := by
  cases op with
  | connect port =>
    simp only [joiningNetwork] at asked
    split at asked <;> cases asked <;> rfl
  | send s bytes =>
    simp only [joiningNetwork] at asked
    split at asked <;> split at asked <;> cases asked <;> rfl
  | recv s len =>
    simp only [joiningNetwork] at asked
    split at asked <;> split at asked <;> cases asked <;> rfl
  | close s =>
    cases asked
    rfl
  | _ => cases asked

theorem rejoiningNetwork_mem (reachable : UInt16 → Bool) (op : platform.Call) (r : op.Reply)
    (asked : rejoiningNetwork reachable (m, n) op = some (r, m₁, n₁)) : m₁ = m := by
  cases op with
  | connect port =>
    simp only [rejoiningNetwork] at asked
    split at asked
    · cases asked
      rfl
    · exact joiningNetwork_mem (.connect port) r asked
  | send s bytes =>
    simp only [rejoiningNetwork] at asked
    split at asked
    · cases asked
      rfl
    · exact joiningNetwork_mem (.send s bytes) r asked
  | recv s len => exact joiningNetwork_mem (.recv s len) r asked
  | close s => exact joiningNetwork_mem (.close s) r asked
  | _ => cases asked

theorem perform_spares {m m₁ : Mem} (op : Op) (r : op.Reply) (spares : op.SparesRouter)
    (performed : m.perform world op = some (r, m₁)) :
    m₁.router = m.router ∧ m₁.object = m.object := by
  cases op with
  | setCurrServer | addServer | shiftOut | shrinkServers => exact spares.elim
  | fault => cases performed
  | sendPacket | recvfrom | garbage =>
    simp only [Mem.perform, Option.map_eq_some_iff] at performed
    obtain ⟨_, _, done⟩ := performed
    cases done
    exact ⟨rfl, rfl⟩
  | _ =>
    cases performed
    exact ⟨rfl, rfl⟩

theorem rejoining_spares (e : Mem × Joining) (op : platform.Call) (r : op.Reply) (e₁ : Mem × Joining)
    (spares : sparesRouter op) (asked : rejoining reachable e op = some (r, e₁)) :
    (e₁.1.router, e₁.1.object) = (e.1.router, e.1.object) := by
  obtain ⟨m, n⟩ := e
  obtain ⟨m₁, n₁⟩ := e₁
  cases op with
  | act op =>
    simp only [rejoining, system, Option.map_eq_some_iff] at asked
    obtain ⟨_, performed, done⟩ := asked
    cases done
    obtain ⟨router, object⟩ := perform_spares op _ spares performed
    rw [router, object]
  | lock | unlock =>
    cases asked
    rfl
  | connect port => rw [rejoiningNetwork_mem reachable (.connect port) r asked]
  | send s bytes => rw [rejoiningNetwork_mem reachable (.send s bytes) r asked]
  | recv s len => rw [rejoiningNetwork_mem reachable (.recv s len) r asked]
  | close s => rw [rejoiningNetwork_mem reachable (.close s) r asked]
  | accept port => cases asked

theorem updateAndOnline_router (ran : Runs (rejoining reachable) (updateAndOnline x) (m, n) code (m₁, n₁)) :
    m₁.router = m.router ∧ m₁.object = m.object :=
  Prod.mk.inj ((updateAndOnline_spares x).runs (f := fun e => (e.1.router, e.1.object)) rejoining_spares ran)

/-- What a member supplies is some member's table and version, as a whole. -/
theorem supplies_iff (member : p ∈ m.ports) : Supplies m p ↔
    ∃ q ∈ m.ports, (m.coms p).handedTable = (m.coms q).table ∧ (m.coms p).handedVersion = (m.coms q).versionNum := by
  constructor
  · rintro (few | another)
    · exact ⟨p, member, handed_of_few few⟩
    · exact another
  · exact .inr

/-- A server that is added behind the others, which keep their tables. -/
theorem rejoined_behind_iff {m₁ : Mem} (rotation : m₁.ports = m.ports ++ [port]) (listed : port ∉ m.ports)
    (kept : ∀ q ∈ m.ports, m₁.coms q = m.coms q) : Rejoined port m₁ ↔
      ∃ q ∈ m.ports, (m₁.coms port).table = (m.coms q).table ∧
        (m₁.coms port).versionNum = (m.coms q).versionNum := by
  constructor
  · intro rejoined
    obtain ⟨q, inside, apart, table, version⟩ := rejoined.copy
    rw [rotation, List.mem_append] at inside
    have before := inside.resolve_right fun joined => apart (List.mem_singleton.mp joined)
    rw [kept q before] at table version
    exact ⟨q, before, table, version⟩
  · rintro ⟨q, inside, table, version⟩
    constructor
    · refine ⟨q, ?_, fun same => listed (same ▸ inside), ?_⟩
      · rw [rotation]
        exact List.mem_append_left _ inside
      · rw [kept q inside]
        exact ⟨table, version⟩
    · rw [rotation, List.count_append, List.count_singleton_self, List.count_eq_zero.mpr listed]

/-- The server has rejoined only if it was out of the rotation, and then exactly if the first member it
reaches supplies it, when the entries of that one fit their buffer and read back. -/
theorem rejoined_iff (x : Server) (sized : m.router.Sized) (resolves : m.object x.address = x)
    (ran : Runs (rejoining reachable) (updateAndOnline x) (m, announceTo m.ports) 0 (m₁, n))
    (added : Runs (alone error) (addDnsServer (m₁.object x.address)) m₁ code m₂) :
    (Rejoined x.tcpPortNum m₂ → x.tcpPortNum ∉ m.ports) ∧
      ∃ p ∈ m.ports.find? reachable, Neat (m.coms p).ipHash.entries →
        (Rejoined x.tcpPortNum m₂ ↔ x.tcpPortNum ∉ m.ports ∧ Supplies m p) := by
  obtain ⟨router, object⟩ := updateAndOnline_router ran
  have sized₁ : m₁.router.Sized := by
    rw [router]
    exact sized
  have ports := addDnsServer_ports sized₁ added
  obtain ⟨_, _, coms⟩ := addDnsServer_spec sized₁ added
  rw [object, resolves] at ports
  have rotation : m₂.ports = m.ports ++ [x.tcpPortNum] := by
    rw [ports, Mem.ports, router, Mem.ports]
  have count : m₂.ports.count x.tcpPortNum = m.ports.count x.tcpPortNum + 1 := by
    rw [rotation, List.count_append, List.count_singleton_self]
  have outside : Rejoined x.tcpPortNum m₂ → x.tcpPortNum ∉ m.ports := by
    intro rejoined
    have once := rejoined.once
    rw [count] at once
    exact List.count_eq_zero.mp (by omega)
  have few : m.ports.length ≤ 255 := by
    rw [Mem.ports, Router.ports, List.length_map, sized.covered.length_rotation]
    exact Nat.le_of_lt_succ m.router.serverCnt.toNat_lt
  refine ⟨outside, ?_⟩
  cases found : m.ports.find? reachable with
  | none =>
    obtain ⟨m', asked⟩ := @requestAny_refused reachable m ⟨[], [], [], [], true⟩ _ x.tcpPortNum found rfl
    obtain ⟨_, ends⟩ := updateAndOnline_asks x rejoining_router (fun _ => rfl) few asked
    exact absurd (ran.unique ends).1 (by decide)
  | some p =>
    refine ⟨p, rfl, fun neat => ?_⟩
    by_cases listed : x.tcpPortNum ∈ m.ports
    · exact iff_of_false (fun rejoined => outside rejoined listed) fun supplied => supplied.1 listed
    have member : p ∈ m.ports := List.mem_of_find?_eq_some found
    have other : x.tcpPortNum ≠ p := fun same => listed (same ▸ member)
    obtain ⟨c, n₁, asked, table, version⟩ := @requestAny_reached reachable m ⟨[], [], [], [], true⟩
      _ _ _ found other neat rfl
    obtain ⟨_, ends⟩ := updateAndOnline_asks x rejoining_router (fun _ => rfl) few asked
    obtain ⟨_, same⟩ := ran.unique ends
    obtain ⟨rfl, _⟩ := Prod.mk.inj same
    have copied : m₂.coms x.tcpPortNum = c := by
      rw [coms, setComs_same]
    have kept : ∀ q ∈ m.ports, m₂.coms q = m.coms q := by
      intro q inside
      rw [coms, setComs_other m (p := x.tcpPortNum) fun same => listed (same ▸ inside)]
    rw [rejoined_behind_iff rotation listed kept, copied, table, version, supplies_iff member]
    exact (and_iff_right listed).symm

end

def serverAt (i : UInt16) : Server := createDnsServer [] i clientPort (dnsPortNum + i)

/-- Servers 1181 and 1182 online, the second at version 1 with `new_domain`; `x` goes online. -/
def pairOnline (x : Server) : Mem :=
  let online : Mem := { startMem .roundRobin with
    router := ⟨.roundRobin, [serverAt 0, serverAt 1], 2, 0⟩
    object := fun _ => x }
  online.setComs 1182 ((online.coms 1182).actuallyUpdate (addNewDomain 1))

theorem rejoined_new_server :
    ∃ m₁ n m₂, Runs (rejoining fun _ => true) (updateAndOnline (serverAt 2))
        (pairOnline (serverAt 2), announceTo [1181, 1182]) 0 (m₁, n) ∧
      Runs (alone 0) (addDnsServer (m₁.object (serverAt 2).address)) m₁ 0 m₂ ∧
      ((Rejoined 1183 m₂ → 1183 ∉ (pairOnline (serverAt 2)).ports) ∧
        ∃ p ∈ (pairOnline (serverAt 2)).ports.find? fun _ => true,
          Neat ((pairOnline (serverAt 2)).coms p).ipHash.entries →
            (Rejoined 1183 m₂ ↔ 1183 ∉ (pairOnline (serverAt 2)).ports ∧
              Supplies (pairOnline (serverAt 2)) p)) := by
  have calls : ∃ m₁ n m₂, Runs (rejoining fun _ => true) (updateAndOnline (serverAt 2))
      (pairOnline (serverAt 2), announceTo [1181, 1182]) 0 (m₁, n) ∧
      Runs (alone 0) (addDnsServer (m₁.object (serverAt 2).address)) m₁ 0 m₂ :=
    ⟨_, _, _, runs_of_run (n := 30) rfl, runs_of_run (n := 5) rfl⟩
  obtain ⟨m₁, n, m₂, ran, added⟩ := calls
  exact ⟨m₁, n, m₂, ran, added, rejoined_iff (serverAt 2) rfl rfl ran added⟩

/-- A listed server that comes first copies itself and is listed twice. -/
theorem listed_server_loses_table :
    ∃ m₁ n m₂, Runs (rejoining fun _ => true) (updateAndOnline (serverAt 0))
        (pairOnline (serverAt 0), announceTo [1181, 1182]) 0 (m₁, n) ∧
      Runs (alone 0) (addDnsServer (m₁.object (serverAt 0).address)) m₁ 0 m₂ ∧
      ¬ Rejoined 1181 m₂ := by
  refine ⟨_, _, _, runs_of_run (n := 30) rfl, runs_of_run (n := 5) rfl, ?_⟩
  intro rejoined
  have once := rejoined.once
  exact absurd once (by decide)

end DnsServer
