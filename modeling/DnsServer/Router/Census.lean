import DnsServer.Process.Rely
import DnsServer.Router.Programs
import Mathlib.Data.List.Nodup

/-! A health round among servers that join while it runs: it removes only servers that it counted at its
beginning and tried to ping. A ping that could not be sent counts like any other. -/
namespace DnsServer
open Process Program Relation Memory

/-- `servers` are all that have been in rotation, in the order that they came. `counted` is how many
there were when the round read `starting_cnt`, and `tried` the ports that it has sent a packet to, each with
whether the send succeeded. -/
structure Census where
  mem : Mem
  locks : Lock → Bool
  servers : List Server
  counted : Option Nat
  tried : List (UInt16 × Bool)

namespace Census

def rotation (e : Census) : List Server := e.mem.router.rotation

/-- The first look at the count is the one that `starting_cnt` keeps. -/
def reply (world : World) (e : Census) : (call : platform.Call) → Option (call.Reply × Census)
  | .lock l => if e.locks l then none else some ((), { e with locks := Function.update e.locks l true })
  | .unlock l => some ((), { e with locks := Function.update e.locks l false })
  | .act .router => some (e.mem.router, { e with counted := some (e.counted.getD e.servers.length) })
  | .act (.sendPacket portNum message) =>
    (world (.sendPacket portNum message)).map fun error =>
      (error, { e with tried := e.tried ++ [(portNum, decide (error = 0))] })
  | .act op => (e.mem.perform world op).map fun answer => (answer.1, { e with mem := answer.2 })
  | .connect _ => none
  | .accept _ => none
  | .send _ _ => none
  | .recv _ _ => none
  | .close _ => none

/-- Sends, pongs and uninitialised memory may turn out in any way. -/
def Replies (e : Census) (call : platform.Call) (r : call.Reply) (e₁ : Census) : Prop :=
  ∃ world, e.reply world call = some (r, e₁)

end Census

/-- A server joins, with an id that no server has had, while nobody holds the mutex. -/
inductive Census.Joins : Census → Census → Prop where
  | join {dns : Server} {router : Router} : e.locks .mutex = false → dns.id.toNat < 256 → dns.id ∉ e.servers.map (·.id) →
      e.mem.router.addServer dns = some router →
      Census.Joins e { e with mem := { e.mem with router }, servers := e.servers ++ [dns] }

/-- Before a round: all servers are in rotation, and none is counted or sent a ping. -/
structure Census.Start (e : Census) : Prop where
  sized : e.mem.router.Sized
  rotation : e.rotation = e.servers
  small : ∀ server ∈ e.servers, server.id.toNat < 256
  distinct : (e.servers.map (·.id)).Nodup
  counted : e.counted = none
  tried : e.tried = []

/-- The pings were for the first servers, one for each, and what joined after the count or comes after the pings
is in rotation. -/
structure Census.Kept (e : Census) : Prop where
  pings : e.tried.map (·.1) = (e.servers.take e.tried.length).map (·.portNum)
  joined : ∀ n, e.counted = some n → ∀ server ∈ e.servers.drop n, server ∈ e.rotation
  untried : ∀ server ∈ e.servers.drop e.tried.length, server ∈ e.rotation

/-- In rotation are the servers that joined after the count, and those that were not sent a ping. -/
structure Census.Spares (e : Census) : Prop where
  joined : ∀ n, e.counted = some n → ∀ server ∈ e.servers.drop n, server ∈ e.rotation
  unpinged : ∀ (i : Nat) server, e.servers[i]? = some server → e.tried[i]? ≠ some (server.portNum, true) →
    server ∈ e.rotation

/-- The invariant of the round. -/
structure Census.Sound (e : Census) : Prop extends Census.Kept e where
  covered : e.mem.router.Covered
  small : ∀ server ∈ e.servers, server.id.toNat < 256
  distinct : (e.servers.map (·.id)).Nodup
  present : e.rotation.Sublist e.servers
  bound : ∀ n, e.counted = some n → n ≤ e.servers.length

/-- The second state is the first, or later, and nothing has been removed between. -/
structure Census.Onward (e e₁ : Census) : Prop where
  servers : e.servers <+: e₁.servers
  counted : ∀ n, e.counted = some n → e₁.counted = some n
  whole : e.rotation = e.servers → e₁.rotation = e₁.servers

/-- No packet has been sent either. -/
structure Census.Calm (e e₁ : Census) : Prop extends Census.Onward e e₁ where
  tried : e₁.tried = e.tried

namespace Census

theorem Onward.refl {e : Census} : Onward e e :=
  ⟨List.prefix_rfl, fun _ counted => counted, fun whole => whole⟩

theorem Onward.trans {e e₁ e₂ : Census} (first : Onward e e₁) (second : Onward e₁ e₂) : Onward e e₂ where
  servers := first.servers.trans second.servers
  counted n counted := second.counted n (first.counted n counted)
  whole whole := second.whole (first.whole whole)

theorem Calm.refl {e : Census} : Calm e e := ⟨.refl, rfl⟩

theorem Calm.trans {e e₁ e₂ : Census} (first : Calm e e₁) (second : Calm e₁ e₂) : Calm e e₂ :=
  ⟨first.toOnward.trans second.toOnward, second.tried.trans first.tried⟩

theorem Start.sound {e : Census} (start : e.Start) : e.Sound where
  pings := by rw [start.tried]; rfl
  joined n counted := by rw [start.counted] at counted; cases counted
  untried server member := by rw [start.rotation]; exact List.mem_of_mem_drop member
  covered := start.sized.covered
  small := start.small
  distinct := start.distinct
  present := by rw [start.rotation]
  bound n counted := by rw [start.counted] at counted; cases counted

theorem Sound.tried_length {e : Census} (sound : e.Sound) : e.tried.length ≤ e.servers.length := by
  have lengths := congrArg List.length sound.pings
  rw [List.length_map, List.length_map, List.length_take] at lengths
  omega

theorem joins_sound {e e₁ : Census} (sound : e.Sound) (joins : Joins e e₁) : e₁.Sound ∧ Calm e e₁ := by
  cases joins with
  | @join dns router _ small fresh added =>
    obtain ⟨sized, grown, _⟩ := addServer_spec sound.covered dns added
    have later : ∀ n, n ≤ e.servers.length → (∀ server ∈ e.servers.drop n, server ∈ e.rotation) →
        ∀ server ∈ (e.servers ++ [dns]).drop n, server ∈ router.rotation := by
      intro n bound there server member
      rw [List.drop_append_of_le_length bound, List.mem_append] at member
      rw [grown, List.mem_append]
      exact member.imp_left (there server)
    constructor
    · constructor
      · constructor
        · change e.tried.map (·.1) = ((e.servers ++ [dns]).take e.tried.length).map (·.portNum)
          rw [List.take_append_of_le_length sound.tried_length]
          exact sound.pings
        · exact fun n counted => later n (sound.bound n counted) (sound.joined n counted)
        · exact later _ sound.tried_length sound.untried
      · exact sized.covered
      · exact List.forall_mem_append.mpr ⟨sound.small, List.forall_mem_singleton.mpr small⟩
      · rw [List.map_append, List.nodup_append']
        refine ⟨sound.distinct, List.nodup_singleton _, ?_⟩
        exact List.disjoint_singleton.mpr fresh
      · change router.rotation.Sublist _
        rw [grown]
        exact sound.present.append_right [dns]
      · intro n counted
        have bound := sound.bound n counted
        rw [List.length_append]
        omega
    · refine ⟨⟨List.prefix_append _ _, fun _ counted => counted, fun whole => ?_⟩, rfl⟩
      change router.rotation = _
      rw [grown]
      exact congrArg (· ++ [dns]) whole

theorem drifts_sound {e e₁ : Census} (sound : e.Sound) (drifts : ReflTransGen Joins e e₁) :
    e₁.Sound ∧ Calm e e₁ := by
  induction drifts with
  | refl => exact ⟨sound, .refl⟩
  | tail _ joins ih =>
    obtain ⟨sound, calm⟩ := joins_sound ih.1 joins
    exact ⟨sound, ih.2.trans calm⟩

/-- A request that neither sends nor removes. -/
def Looks : platform.Call → Prop
  | .lock _ => True
  | .unlock _ => True
  | .act .router => True
  | .act (.garbage _) => True
  | .act .recvfrom => True
  | _ => False

/-- What a look at the router tells. -/
def Tells (e : Census) : (call : platform.Call) → call.Reply → Census → Prop
  | .act .router, router, e₁ =>
    router = e.mem.router ∧ e₁.counted = some (e.counted.getD e.servers.length)
  | _, _, _ => True

theorem Tells.onward {e e₁ e₂ : Census} {op : platform.Call} {r : op.Reply} (tells : Tells e op r e₁)
    (onward : Onward e₁ e₂) : Tells e op r e₂ := by
  cases op with
  | act op =>
    cases op with
    | router => exact ⟨tells.1, onward.counted _ tells.2⟩
    | _ => exact trivial
  | _ => exact trivial

/-- The post-condition and the rules of a program in a round. -/
abbrev Obeys (p : Proc α) (post : α → Census → Prop) (e : Census) : Prop :=
  Program.Obeys (upholding Replies Joins Sound) p post e

/-- Nothing of what the invariant is about has changed, but the count may have been looked at. -/
theorem sound_of_same {e e₁ : Census} (sound : e.Sound) (mem : e₁.mem = e.mem) (servers : e₁.servers = e.servers)
    (tried : e₁.tried = e.tried)
    (counted : e₁.counted = e.counted ∨ e₁.counted = some (e.counted.getD e.servers.length)) :
    e₁.Sound ∧ Calm e e₁ := by
  have rotation : e₁.rotation = e.rotation := by rw [rotation, mem, Census.rotation]
  have known : ∀ n, e₁.counted = some n → e.counted = some n ∨ n = e.servers.length := by
    intro n now
    rcases counted with same | looked
    · exact .inl (same ▸ now)
    · rw [looked, Option.some.injEq] at now
      cases before : e.counted with
      | none =>
        rw [before] at now
        exact .inr now.symm
      | some m =>
        rw [before] at now
        exact .inl (congrArg some now)
  constructor
  · constructor
    · constructor
      · rw [servers, tried]
        exact sound.pings
      · intro n now server member
        rw [servers] at member
        rw [rotation]
        rcases known n now with before | rfl
        · exact sound.joined n before server member
        · simp at member
      · rw [servers, tried, rotation]
        exact sound.untried
    · rw [mem]
      exact sound.covered
    · rw [servers]
      exact sound.small
    · rw [servers]
      exact sound.distinct
    · rw [servers, rotation]
      exact sound.present
    · intro n now
      rw [servers]
      rcases known n now with before | rfl
      · exact sound.bound n before
      · exact le_rfl
  · refine ⟨⟨servers ▸ List.prefix_rfl, fun n before => ?_, fun whole => ?_⟩, tried⟩
    · rcases counted with same | looked
      · exact same.trans before
      · rw [looked, before]
        rfl
    · rw [rotation, servers]
      exact whole

/-- It changes no more than which count was looked at first. -/
theorem looks_same {e e₁ : Census} {op : platform.Call} {r : op.Reply} (looks : Looks op)
    (answered : e.Replies op r e₁) :
    e₁.mem = e.mem ∧ e₁.servers = e.servers ∧ e₁.tried = e.tried ∧
      (e₁.counted = e.counted ∨ e₁.counted = some (e.counted.getD e.servers.length)) ∧ Tells e op r e₁ := by
  obtain ⟨world, answered⟩ := answered
  cases op with
  | lock l =>
    simp only [reply, Option.ite_none_left_eq_some] at answered
    obtain ⟨_, done⟩ := answered
    cases done
    exact ⟨rfl, rfl, rfl, .inl rfl, trivial⟩
  | unlock l =>
    cases answered
    exact ⟨rfl, rfl, rfl, .inl rfl, trivial⟩
  | act op =>
    cases op with
    | router =>
      cases answered
      exact ⟨rfl, rfl, rfl, .inr rfl, rfl, rfl⟩
    | garbage n =>
      simp only [reply, Mem.perform, Option.map_map, Option.map_eq_some_iff] at answered
      obtain ⟨_, _, done⟩ := answered
      cases done
      exact ⟨rfl, rfl, rfl, .inl rfl, trivial⟩
    | recvfrom =>
      simp only [reply, Mem.perform, Option.map_map, Option.map_eq_some_iff] at answered
      obtain ⟨_, _, done⟩ := answered
      cases done
      exact ⟨rfl, rfl, rfl, .inl rfl, trivial⟩
    | _ => exact looks.elim
  | _ => exact looks.elim

theorem looks_sound {e e₁ : Census} {op : platform.Call} {r : op.Reply} (looks : Looks op) (sound : e.Sound)
    (answered : e.Replies op r e₁) : (e₁.Sound ∧ Calm e e₁) ∧ Tells e op r e₁ := by
  obtain ⟨mem, servers, tried, counted, tells⟩ := looks_same looks answered
  exact ⟨sound_of_same sound mem servers tried counted, tells⟩

/-- Such a request, whoever joins after it. -/
theorem obeys_looks {e : Census} {op : platform.Call} {k : op.Reply → Proc α} {post : α → Census → Prop}
    (looks : Looks op) (sound : e.Sound)
    (next : ∀ r e₁, e₁.Sound → Calm e e₁ → Tells e op r e₁ → Obeys (k r) post e₁) :
    Obeys (@Program.call platform.interface _ op k) post e := by
  refine obeys_upholding sound fun r e₁ e₂ answered drifts => ?_
  obtain ⟨⟨sound₁, calm₁⟩, tells⟩ := looks_sound looks sound answered
  obtain ⟨sound₂, calm₂⟩ := drifts_sound sound₁ drifts
  exact next r e₂ sound₂ (calm₁.trans calm₂) (tells.onward calm₂.toOnward)

/-- There is no answer to undefined behaviour. -/
theorem obeys_fault {e : Census} {post : α → Census → Prop} (sound : e.Sound) : Obeys (fault : Proc α) post e :=
  obeys_upholding sound fun r => r.elim

/-- The next ping goes to the first server that has had none. -/
theorem obeys_ping {e : Census} {k : UInt8 → Proc α} {post : α → Census → Prop} {server : Server} (message : Bytes)
    (sound : e.Sound) (first : e.servers[e.tried.length]? = some server)
    (next : ∀ error e₁, e₁.Sound → Onward e e₁ → e₁.tried.length = e.tried.length + 1 → Obeys (k error) post e₁) :
    Obeys (@Program.call platform.interface _ (.act (.sendPacket server.portNum message)) k) post e := by
  refine obeys_upholding sound fun error e₁ e₂ answered drifts => ?_
  obtain ⟨world, answered⟩ := answered
  simp only [reply, Option.map_eq_some_iff] at answered
  obtain ⟨_, _, done⟩ := answered
  cases done
  let ping : UInt16 × Bool := (server.portNum, decide (error = 0))
  have sound₁ : Sound { e with tried := e.tried ++ [ping] } := by
    refine { sound with pings := ?_, untried := ?_ }
    · change (e.tried ++ [ping]).map (·.1) = (e.servers.take (e.tried ++ [ping]).length).map (·.portNum)
      rw [List.length_append, List.length_singleton, List.take_add_one, first, List.map_append, List.map_append,
        ← sound.pings]
      rfl
    · intro other member
      rw [List.length_append, ← List.drop_drop] at member
      exact sound.untried other (List.mem_of_mem_drop member)
  obtain ⟨sound₂, calm⟩ := drifts_sound sound₁ drifts
  have onward : Onward e { e with tried := e.tried ++ [ping] } :=
    ⟨List.prefix_rfl, fun _ counted => counted, fun whole => whole⟩
  refine next _ e₂ sound₂ (onward.trans calm.toOnward) ?_
  rw [calm.tried, List.length_append, List.length_singleton]

/-- While nothing has been removed, the count is that of all servers. -/
theorem Sound.count {e : Census} (sound : e.Sound) (whole : e.rotation = e.servers) :
    e.mem.router.serverCnt.toNat = e.servers.length := by
  rw [← whole, rotation, sound.covered.length_rotation]

theorem getElem?_servers {e : Census} {i : Nat} (whole : e.rotation = e.servers) (within : i < e.mem.router.serverCnt.toNat) :
    e.servers[i]? = e.mem.router.servers[i]? := by
  rw [← whole, rotation, Router.rotation, List.getElem?_take_of_lt within]

/-- Later the server is still at its place. -/
theorem Onward.getElem? {e e₁ : Census} {i : Nat} (onward : Onward e e₁) (there : e.servers[i]? = some server) :
    e₁.servers[i]? = some server := by
  obtain ⟨more, same⟩ := onward.servers
  have within := (List.getElem?_eq_some_iff.mp there).1
  rw [← same, List.getElem?_append_left within, there]

/-- All servers that were there when the pings began are sent one. -/
theorem sendPings_counts {e : Census} (sound : e.Sound) (whole : e.rotation = e.servers) (none : e.tried = []) :
    Obeys sendPings (fun _ e₁ => e₁.Sound ∧ Onward e e₁ ∧ e.servers.length ≤ e₁.tried.length) e := by
  refine obeys_upholding_loop (fun i e₁ => e₁.Sound ∧ Onward e e₁ ∧ e₁.tried.length = i)
    ⟨sound, .refl, by simp [none]⟩ ?_
  rintro i e₁ ⟨sound₁, onward₁, sent⟩
  refine ⟨sound₁, ?_⟩
  simp only [act, request, bind_eq, pure_eq, call_bind, ret_bind]
  refine obeys_looks trivial sound₁ fun router e₂ sound₂ calm₂ tells => ?_
  obtain ⟨rfl, _⟩ := tells
  have now := onward₁.whole whole
  split
  · next all =>
    refine ⟨sound₂, onward₁.trans calm₂.toOnward, ?_⟩
    have before := onward₁.servers.length_le
    rw [sound₁.count now] at all
    rw [calm₂.tried]
    omega
  next more =>
  refine obeys_looks trivial sound₂ fun buffer e₃ sound₃ calm₃ _ => ?_
  have calm := calm₂.trans calm₃
  split
  · exact obeys_fault sound₃
  split
  · exact obeys_fault sound₃
  next server stored =>
  have first : e₃.servers[e₃.tried.length]? = some server := by
    rw [calm.tried, sent]
    exact calm.toOnward.getElem? ((getElem?_servers now (Nat.not_le.mp more)).trans stored)
  refine obeys_ping _ sound₃ first fun _ e₄ sound₄ onward₄ counted => ?_
  refine ⟨sound₄, (onward₁.trans calm.toOnward).trans onward₄, ?_⟩
  rw [counted, calm.tried, sent]

/-- The list begins with the ids of the servers in the order that they came, as many as there were when it
was begun at least. -/
theorem listServers_lists {e : Census} (sound : e.Sound) (whole : e.rotation = e.servers) (offline : Bytes) :
    Obeys (listServers offline)
      (fun offline e₁ => e₁.Sound ∧ Calm e e₁ ∧
        offline.take e.servers.length = e.servers.map (·.id.toUInt8)) e := by
  refine obeys_upholding_loop (fun listed e₁ => e₁.Sound ∧ Calm e e₁ ∧
      listed.1.take listed.2 = (e₁.servers.take listed.2).map (·.id.toUInt8)) ⟨sound, .refl, by simp⟩ ?_
  rintro ⟨offline, i⟩ e₁ ⟨sound₁, calm₁, listed⟩
  refine ⟨sound₁, ?_⟩
  simp only [act, request, bind_eq, pure_eq, call_bind, ret_bind]
  refine obeys_looks trivial sound₁ fun router e₂ sound₂ calm₂ tells => ?_
  obtain ⟨rfl, _⟩ := tells
  have now := calm₁.whole whole
  obtain ⟨more, same⟩ := calm₂.servers
  split
  · next all =>
    refine ⟨sound₂, calm₁.trans calm₂, ?_⟩
    obtain ⟨joined, grown⟩ := calm₁.servers
    rw [sound₁.count now, ← grown, List.length_append] at all
    have lists := congrArg (List.take e.servers.length) listed
    rw [← List.map_take, List.take_take, List.take_take, Nat.min_eq_left (by omega), ← grown] at lists
    rwa [List.take_left] at lists
  next further =>
  split
  · exact obeys_fault sound₂
  next server stored =>
  split
  · exact obeys_fault sound₂
  next written =>
  refine ⟨sound₂, calm₁.trans calm₂, ?_⟩
  have there := calm₂.toOnward.getElem? ((getElem?_servers now (Nat.not_le.mp further)).trans stored)
  have within : i ≤ e₁.servers.length := by
    rw [sound₁.count now] at further
    omega
  have kept : e₂.servers.take i = e₁.servers.take i := by
    rw [← same, List.take_append_of_le_length within]
  have extended := take_write written
  rw [listed, ← kept] at extended
  refine extended.trans ?_
  change _ = (e₂.servers.take (i + 1)).map _
  rw [List.take_add_one, there]
  simp

/-- What is left of the list are some of its elements, in their order. -/
theorem crossOff_left {e : Census} (sound : e.Sound) (offline : Bytes) (cnt : UInt8) :
    Obeys (crossOff offline cnt) (fun rest e₁ => e₁.Sound ∧ Calm e e₁ ∧
      (rest.1.take rest.2.toNat).Sublist (offline.take cnt.toNat)) e := by
  simp only [crossOff, act, request, bind_eq, pure_eq, call_bind, ret_bind]
  refine obeys_looks trivial sound fun buffer e₀ sound₀ calm₀ _ => ?_
  refine obeys_upholding_loop (fun rest e₁ => e₁.Sound ∧ Calm e e₁ ∧
    (rest.1.take rest.2.1.toNat).Sublist (offline.take cnt.toNat)) ⟨sound₀, calm₀, List.Sublist.refl _⟩ ?_
  rintro ⟨rest, left, last⟩ e₁ ⟨sound₁, calm₁, fewer⟩
  refine ⟨sound₁, ?_⟩
  refine obeys_looks trivial sound₁ fun got e₂ sound₂ calm₂ _ => ?_
  cases got with
  | none => exact ⟨sound₂, calm₁.trans calm₂, fewer⟩
  | some bytes =>
    simp only
    split
    · exact obeys_fault sound₂
    next rest₁ left₁ crossed =>
    have fits : left.toNat ≤ rest.length := by
      have within := crossOut_fits crossed
      omega
    obtain ⟨_, _, crossed₁, _, without⟩ := crossOut_eq fits (bytes.headD last)
    cases crossed.symm.trans crossed₁
    refine ⟨sound₂, calm₁.trans calm₂, ?_⟩
    change (rest₁.take left₁.toNat).Sublist _
    rw [without]
    exact List.erase_sublist.trans fewer

/-- The servers still to be removed were counted and sent a ping. -/
structure Draining (offline : List UInt8) (e : Census) : Prop extends Sound e where
  condemned : ∃ n, e.counted = some n ∧ n ≤ e.tried.length ∧
    ∀ dnsId ∈ offline, ∃ server ∈ e.servers.take n, server.id = dnsId.toUInt16

theorem Draining.calm {e e₁ : Census} (draining : Draining offline e) (sound : e₁.Sound) (calm : Calm e e₁) :
    Draining offline e₁ := by
  obtain ⟨n, counted, sent, old⟩ := draining.condemned
  obtain ⟨more, same⟩ := calm.servers
  refine ⟨sound, n, calm.counted n counted, calm.tried.symm ▸ sent, fun dnsId member => ?_⟩
  obtain ⟨server, early, mine⟩ := old dnsId member
  refine ⟨server, ?_, mine⟩
  rwa [← same, List.take_append_of_le_length (draining.bound n counted)]

/-- A look at nothing but the mutexes, or a step that leaves the rotation as it is. -/
theorem obeys_draining {e : Census} {op : platform.Call} {k : op.Reply → Proc α} {post : α → Census → Prop}
    (looks : Looks op) (draining : Draining offline e)
    (next : ∀ r e₁, Draining offline e₁ → Obeys (k r) post e₁) :
    Obeys (@Program.call platform.interface _ op k) post e := by
  refine obeys_looks looks draining.toSound fun r e₁ sound₁ calm₁ _ => ?_
  exact next r e₁ (draining.calm sound₁ calm₁)

/-- The server that goes was counted, so none that came later has its id. -/
theorem Draining.shiftOut {e : Census} {router : Router} (draining : Draining (dnsId :: offline) e)
    (shifted : e.mem.router.shiftOut dnsId = some (deleted, router)) :
    Draining offline { e with mem := { e.mem with router } } := by
  obtain ⟨n, counted, sent, old⟩ := draining.condemned
  obtain ⟨gone, early, mine⟩ := old dnsId List.mem_cons_self
  obtain ⟨_, _, shifted₁, _, _, fewer, covered, _⟩ := shiftOut_spec draining.covered dnsId
  cases shifted.symm.trans shifted₁
  have apart : ∀ server ∈ e.servers.drop n, server.id ≠ dnsId.toUInt16 := by
    intro server late same
    have distinct := draining.distinct
    rw [← List.take_append_drop n e.servers, List.map_append, List.nodup_append'] at distinct
    exact distinct.2.2 (List.mem_map_of_mem early) (mine ▸ same ▸ List.mem_map_of_mem late)
  have kept : ∀ server ∈ e.servers.drop n, server ∈ router.rotation := by
    intro server late
    rw [fewer]
    exact (List.mem_eraseP_of_neg (by simpa using apart server late)).mpr (draining.joined n counted server late)
  refine ⟨{ draining with joined := ?_, untried := ?_, covered := covered, present := ?_ }, n, counted, sent, ?_⟩
  · intro m now
    obtain rfl := Option.some.inj (counted.symm.trans now)
    exact kept
  · intro server late
    obtain ⟨more, same⟩ := Nat.exists_eq_add_of_le sent
    change server ∈ e.servers.drop e.tried.length at late
    rw [same, ← List.drop_drop] at late
    exact kept server (List.mem_of_mem_drop late)
  · change router.rotation.Sublist _
    rw [fewer]
    exact List.eraseP_sublist.trans draining.present
  · exact fun other member => old other (List.mem_cons_of_mem _ member)

theorem Draining.shrinkServers {e : Census} (draining : Draining offline e) :
    Draining offline { e with mem := { e.mem with router := e.mem.router.shrinkServers } } := by
  obtain ⟨sized, same⟩ := shrinkServers_spec draining.covered
  have rotation : Census.rotation { e with mem := { e.mem with router := e.mem.router.shrinkServers } } = e.rotation :=
    same
  refine ⟨{ draining with joined := ?_, untried := ?_, covered := sized.covered, present := ?_ }, draining.condemned⟩
  · rw [rotation]
    exact draining.joined
  · rw [rotation]
    exact draining.untried
  · rw [rotation]
    exact draining.present

theorem removeServer_drains {e : Census} (draining : Draining (dnsId :: offline) e) :
    Obeys (removeServer dnsId) (fun _ e₁ => Draining offline e₁) e := by
  simp only [removeServer, lock, unlock, act, request, bind_eq, pure_eq, call_bind, ret_bind]
  refine obeys_draining trivial draining fun _ e₁ draining₁ => ?_
  refine obeys_draining trivial draining₁ fun _ e₂ draining₂ => ?_
  refine obeys_upholding draining₂.toSound fun deleted e₃ e₄ answered drifts => ?_
  obtain ⟨world, answered⟩ := answered
  simp only [reply, Mem.perform, Option.map_map, Option.map_eq_some_iff] at answered
  obtain ⟨⟨_, router⟩, shifted, done⟩ := answered
  cases done
  have draining₃ := draining₂.shiftOut shifted
  obtain ⟨sound₄, calm₄⟩ := drifts_sound draining₃.toSound drifts
  have draining₄ := draining₃.calm sound₄ calm₄
  split
  · exact draining₄
  refine obeys_upholding sound₄ fun _ e₅ e₆ answered drifts => ?_
  obtain ⟨world, answered⟩ := answered
  cases answered
  have draining₅ := draining₄.shrinkServers
  obtain ⟨sound₆, calm₆⟩ := drifts_sound draining₅.toSound drifts
  refine obeys_draining trivial (draining₅.calm sound₆ calm₆) fun _ e₇ draining₇ => ?_
  exact obeys_draining trivial draining₇ fun _ e₈ draining₈ => draining₈

theorem removeServers_drains {e : Census} (draining : Draining offline e) :
    Obeys (removeServers offline) (fun _ e₁ => e₁.Sound) e := by
  induction offline generalizing e with
  | nil => exact draining.toSound
  | cons dnsId offline ih => exact .bind ((removeServer_drains draining).mono fun _ _ more => ih more)

/-- The round from the beginning. When the counts are the same at its end, nobody has joined before the last
look, so the list has the servers that were counted. -/
theorem queryResponseTime_sound {e : Census} (sound : e.Sound) (whole : e.rotation = e.servers)
    (none : e.counted = none) (unsent : e.tried = []) : Obeys queryResponseTime (fun _ e₁ => e₁.Sound) e := by
  simp only [queryResponseTime, act, request, bind_eq, pure_eq, call_bind, ret_bind, fault_bind]
  refine obeys_looks trivial sound fun router e₁ sound₁ calm₁ tells => ?_
  obtain ⟨rfl, counted⟩ := tells
  rw [none, Option.getD_none] at counted
  refine .bind ((sendPings_counts sound₁ (calm₁.whole whole) (calm₁.tried.trans unsent)).mono ?_)
  rintro _ e₂ ⟨sound₂, onward₂, sent⟩
  refine obeys_looks trivial sound₂ fun _ e₃ sound₃ calm₃ _ => ?_
  refine obeys_looks trivial sound₃ fun offline e₄ sound₄ calm₄ _ => ?_
  refine obeys_looks trivial sound₄ fun router e₅ sound₅ calm₅ tells => ?_
  obtain ⟨rfl, _⟩ := tells
  have onward₄ := (calm₁.toOnward.trans onward₂).trans (calm₃.trans calm₄).toOnward
  have onward₅ := onward₄.trans calm₅.toOnward
  refine .bind ((listServers_lists sound₅ (onward₅.whole whole) offline.val).mono ?_)
  rintro offline e₆ ⟨sound₆, calm₆, listed⟩
  refine .bind ((crossOff_left sound₆ offline e₄.mem.router.serverCnt).mono ?_)
  rintro ⟨rest, left⟩ e₇ ⟨sound₇, calm₇, fewer⟩
  refine obeys_looks trivial sound₇ fun router e₈ sound₈ calm₈ tells => ?_
  obtain ⟨rfl, _⟩ := tells
  split
  · exact sound₈
  next unchanged =>
  split
  · exact obeys_fault sound₈
  have listing := calm₆.trans calm₇
  have ended := sound₇.count ((onward₅.trans listing.toOnward).whole whole)
  rw [← not_not.mp unchanged, sound.count whole] at ended
  have size₁ := calm₁.servers.length_le
  have size₄ := onward₄.servers.length_le
  have size₅ := calm₅.servers.length_le
  have size₇ := listing.servers.length_le
  have all₅ : e₅.servers.length = e.servers.length := by omega
  have cnt : e₄.mem.router.serverCnt.toNat = e₅.servers.length := by
    rw [sound₄.count (onward₄.whole whole)]
    omega
  rw [cnt, listed] at fewer
  have after := (calm₃.trans calm₄).trans ((calm₅.trans listing).trans calm₈)
  have draining : Draining (rest.take left.toNat) e₈ := by
    refine ⟨sound₈, e.servers.length, after.counted _ (onward₂.counted _ counted), ?_, ?_⟩
    · rw [after.tried]
      exact size₁.trans sent
    · intro dnsId member
      obtain ⟨server, online, rfl⟩ := List.mem_map.mp (fewer.subset member)
      refine ⟨server, ?_, (Server.id_of_byte (sound₅.small server online)).symm⟩
      rwa [← all₅, ← List.prefix_iff_eq_take.mp (listing.trans calm₈).servers]
  exact .bind ((removeServers_drains draining).mono fun _ _ sound => sound)

theorem joins_before {e e₁ : Census} (drifts : ReflTransGen Joins e e₁) :
    e₁.counted = e.counted ∧ e₁.tried = e.tried := by
  induction drifts with
  | refl => exact ⟨rfl, rfl⟩
  | tail _ joins ih =>
    cases joins with
    | join => exact ih

theorem queryResponseTime_upheld {e : Census} (start : e.Start) :
    Upheld Replies Joins Sound queryResponseTime (fun _ _ => True) e := by
  intro e₁ drifts
  obtain ⟨sound, calm⟩ := drifts_sound start.sound drifts
  obtain ⟨counted, tried⟩ := joins_before drifts
  have obeys := queryResponseTime_sound sound (calm.whole start.rotation) (counted.trans start.counted)
    (tried.trans start.tried)
  exact Program.Obeys.mono obeys fun _ _ sound => ⟨sound, trivial⟩

end Census

/-- At every moment of a round, whenever servers join and whatever sends fail. -/
theorem queryResponseTime_kept {e : Census} (start : e.Start)
    (run : ReflTransGen (Shared Census.Replies Census.Joins) (queryResponseTime, e) Y) : Y.2.Kept :=
  ((Census.queryResponseTime_upheld start).run run).toKept

/-! Rounds all of whose pings can be sent. -/

/-- The request is no send that fails. -/
def Sends : (call : platform.Call) → call.Reply → Prop
  | .act (.sendPacket _ _), error => error = 0
  | _, _ => True

def Census.Delivers (e : Census) (call : platform.Call) (r : call.Reply) (e₁ : Census) : Prop :=
  e.Replies call r e₁ ∧ Sends call r

theorem Census.Delivers.tried {e e₁ : Census} {call : platform.Call} {r : call.Reply} (delivers : e.Delivers call r e₁)
    (before : ∀ ping ∈ e.tried, ping.2 = true) : ∀ ping ∈ e₁.tried, ping.2 = true := by
  obtain ⟨⟨world, answered⟩, sends⟩ := delivers
  cases call with
  | act op =>
    cases op with
    | router =>
      cases answered
      exact before
    | sendPacket portNum message =>
      simp only [reply, Option.map_eq_some_iff] at answered
      obtain ⟨error, _, done⟩ := answered
      cases done
      exact List.forall_mem_append.mpr ⟨before, List.forall_mem_singleton.mpr (decide_eq_true sends)⟩
    | _ =>
      simp only [reply, Option.map_eq_some_iff] at answered
      obtain ⟨_, _, done⟩ := answered
      cases done
      exact before
  | lock l =>
    simp only [reply, Option.ite_none_left_eq_some] at answered
    cases answered.2
    exact before
  | unlock l =>
    cases answered
    exact before
  | _ => cases answered

theorem Census.delivered {X Y : Proc UInt8 × Census} (run : ReflTransGen (Shared Census.Delivers Census.Joins) X Y)
    (before : ∀ ping ∈ X.2.tried, ping.2 = true) :
    ReflTransGen (Shared Census.Replies Census.Joins) X Y ∧ ∀ ping ∈ Y.2.tried, ping.2 = true := by
  induction run with
  | refl => exact ⟨.refl, before⟩
  | tail _ moved ih =>
    cases moved with
    | call delivers => exact ⟨ih.1.tail (.call delivers.1), delivers.tried ih.2⟩
    | turn => exact ⟨ih.1.tail .turn, ih.2⟩
    | drift joins =>
      have same := (joins_before (.single joins)).2
      exact ⟨ih.1.tail (.drift joins), same ▸ ih.2⟩

theorem Census.Kept.spares {e : Census} (kept : e.Kept) (sent : ∀ ping ∈ e.tried, ping.2 = true) : e.Spares where
  joined := kept.joined
  unpinged i server there unsent := by
    rcases Nat.lt_or_ge i e.tried.length with early | late
    · have port := congrArg (·[i]?) kept.pings
      simp only [List.getElem?_map, List.getElem?_take_of_lt early, there, List.getElem?_eq_getElem early,
        Option.map_some, Option.some.injEq] at port
      refine absurd ?_ unsent
      rw [List.getElem?_eq_getElem early, Option.some.injEq]
      exact Prod.ext port (sent _ (List.getElem_mem early))
    · obtain ⟨j, rfl⟩ := Nat.exists_eq_add_of_le late
      refine kept.untried server (List.mem_of_getElem? (i := j) ?_)
      rw [List.getElem?_drop, there]

/-- At every moment of a round whose pings can all be sent, whenever servers join: those that joined after
`starting_cnt` was read are in rotation, and so are those that the round has sent no ping. -/
theorem queryResponseTime_spares_joined {e : Census} (start : e.Start)
    (run : ReflTransGen (Shared Census.Delivers Census.Joins) (queryResponseTime, e) Y) : Y.2.Spares := by
  obtain ⟨whole, sent⟩ := Census.delivered run (by simp [start.tried])
  exact (queryResponseTime_kept start whole).spares sent

/-- One server, with id 0, before a round. -/
def oneCounted : Census where
  mem := { startMem .roundRobin with router := ⟨.roundRobin, [createDnsServer [] 0 0 0], 1, 0⟩ }
  locks _ := false
  servers := [createDnsServer [] 0 0 0]
  counted := none
  tried := []

theorem oneCounted_start : oneCounted.Start :=
  ⟨(rfl : oneCounted.mem.router.Sized), rfl, by decide, by decide, rfl, rfl⟩

theorem Census.silent_delivers {e e₁ : Census} {call : platform.Call} {r : call.Reply}
    (answered : e.reply silentWorld call = some (r, e₁)) : e.Delivers call r e₁ := by
  refine ⟨⟨silentWorld, answered⟩, ?_⟩
  cases call with
  | act op =>
    cases op with
    | sendPacket portNum message =>
      cases answered
      rfl
    | _ => trivial
  | _ => trivial

/-- The server has been sent a ping, is silent and is about to be removed. -/
def oneSilent : Proc UInt8 × Census :=
  (walk (fun e => Census.reply silentWorld e) 18 (queryResponseTime, oneCounted)).getD (queryResponseTime, oneCounted)

/-- A second server has joined by then. -/
def secondLate : Census := { oneSilent.2 with
  mem := { oneSilent.2.mem with
    router := ⟨.roundRobin, [createDnsServer [] 0 0 0, createDnsServer [] 1 0 1], 2, 0⟩ }
  servers := [createDnsServer [] 0 0 0, createDnsServer [] 1 0 1] }

theorem queryResponseTime_spares_second : ∃ Y,
    ReflTransGen (Shared Census.Delivers Census.Joins) (queryResponseTime, oneCounted) Y ∧ Y.1 = .ret 0 ∧
      Y.2.rotation = [createDnsServer [] 1 0 1] ∧ Y.2.Spares := by
  have first : ReflTransGen (Shared Census.Delivers Census.Joins) (queryResponseTime, oneCounted) oneSilent :=
    shared_of_walk (n := 18) (fun _ _ _ _ => Census.silent_delivers) rfl
  have joins : Census.Joins oneSilent.2 secondLate :=
    .join rfl (by decide) (by decide) rfl
  obtain ⟨Y, walked, ended, left⟩ : ∃ Y,
      walk (fun e => Census.reply silentWorld e) 6 (oneSilent.1, secondLate) = some Y ∧ Y.1 = .ret 0 ∧
        Y.2.rotation = [createDnsServer [] 1 0 1] := ⟨_, rfl, rfl, rfl⟩
  have run := (first.tail (.drift joins)).trans (shared_of_walk (fun _ _ _ _ => Census.silent_delivers) walked)
  exact ⟨Y, run, ended, left, queryResponseTime_spares_joined oneCounted_start run⟩

/-- No send succeeds. -/
def unsentWorld : World
  | .sendPacket _ _ => some 1
  | op => silentWorld op

/-- The round removes the server although its ping could not be sent. -/
theorem unsent_ping_removes : ∃ Y, oneCounted.Start ∧
    ReflTransGen (Shared Census.Replies Census.Joins) (queryResponseTime, oneCounted) Y ∧ Y.1 = .ret 0 ∧
      Y.2.tried = [(0, false)] ∧ Y.2.rotation = [] ∧ ¬ Y.2.Spares := by
  obtain ⟨Y, walked, ended, tried, left, servers⟩ : ∃ Y,
      walk (fun e => Census.reply unsentWorld e) 24 (queryResponseTime, oneCounted) = some Y ∧ Y.1 = .ret 0 ∧
        Y.2.tried = [(0, false)] ∧ Y.2.rotation = [] ∧ Y.2.servers = [createDnsServer [] 0 0 0] :=
    ⟨_, rfl, rfl, rfl, rfl, rfl⟩
  refine ⟨Y, oneCounted_start, shared_of_walk (fun _ _ _ _ answered => ⟨unsentWorld, answered⟩) walked, ended,
    tried, left, fun spares => ?_⟩
  have stays := spares.unpinged 0 (createDnsServer [] 0 0 0) (by rw [servers]; rfl) (by rw [tried]; decide)
  rw [left] at stays
  cases stays

end DnsServer
