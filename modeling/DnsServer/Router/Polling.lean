import DnsServer.Router.Programs
import Mathlib.Data.List.Nodup

/-! A health round that nobody disturbs: it removes the servers that are silent, and no others. -/
namespace DnsServer
open Process Program Memory

/-- The pongs wait in the socket, and sends and uninitialised memory turn out in any way, at each
tick of the clock in its own. -/
structure Polling where
  mem : Mem
  held : Lock → Bool
  pongs : List UInt8
  clock : Nat

def Polling.setLock (e : Polling) (l : Lock) (taken : Bool) : Polling :=
  { e with held := Function.update e.held l taken }

/-- A mutex that is held is waited for, and there are no connections. -/
def polled (world : Nat → World) : Handler platform.interface Polling
  | e, .lock l => if e.held l then none else some ((), e.setLock l true)
  | e, .unlock l => some ((), e.setLock l false)
  | e, .act .recvfrom =>
    match e.pongs with
    | [] => some (none, e)
    | pong :: pongs => some (some [pong], { e with pongs })
  | e, .act op =>
    (e.mem.perform (world e.clock) op).map fun answer =>
      (answer.1, { e with mem := answer.2, clock := e.clock + 1 })
  | _, _ => none

/-- Every send ends, and there is always some memory for a local. -/
structure Answering (world : Nat → World) : Prop where
  sends : ∀ t portNum message, ((world t) (.sendPacket portNum message)).isSome
  locals : ∀ t n, ((world t) (.garbage n)).isSome

section
variable {world : Nat → World} {e : Polling}

theorem polled_sendPacket (answering : Answering world) (portNum : UInt16) (message : Bytes) :
    ∃ error, polled world e (.act (.sendPacket portNum message)) = some (error, { e with clock := e.clock + 1 }) := by
  obtain ⟨error, sent⟩ := Option.isSome_iff_exists.mp (answering.sends e.clock portNum message)
  exact ⟨error, by simp only [polled, Mem.perform, sent, Option.map_some]⟩

theorem polled_garbage (answering : Answering world) (n : Nat) :
    ∃ bytes, polled world e (.act (.garbage n)) = some (bytes, { e with clock := e.clock + 1 }) := by
  obtain ⟨bytes, given⟩ := Option.isSome_iff_exists.mp (answering.locals e.clock n)
  exact ⟨bytes, by simp only [polled, Mem.perform, given, Option.map_some]⟩

theorem sendPings_polled (answering : Answering world) (covered : e.mem.router.Covered) :
    ∃ clock, Runs (polled world) sendPings e () { e with clock } := by
  suffices turns : ∀ n i clock, e.mem.router.serverCnt.toNat - i = n →
      ∃ clock₁, Runs (polled world) (.loop i _ .ret) { e with clock } () { e with clock := clock₁ } from
    turns _ 0 e.clock rfl
  intro n
  induction n with
  | zero =>
    intro i clock left
    refine ⟨clock + 1, .loop ?_⟩
    simp only [act, request, bind_eq, pure_eq, call_bind, ret_bind, unroll]
    refine .reply e.mem.router _ rfl ?_
    rw [if_pos (by omega)]
    exact .ret
  | succ n ih =>
    intro i clock left
    obtain ⟨buffer, given⟩ := polled_garbage (e := { e with clock := clock + 1 }) answering maxDnsBytes
    obtain ⟨_, _, rest, crafted⟩ := exists_craftMessage buffer.val true pingId [0] none
      (by rw [buffer.property]; decide)
    have within : i < e.mem.router.servers.length := by
      have fits : e.mem.router.serverCnt.toNat ≤ e.mem.router.servers.length := covered
      omega
    let server := e.mem.router.servers[i]
    obtain ⟨error, sent⟩ := polled_sendPacket (e := { e with clock := clock + 2 }) answering server.portNum
      (((craftHeader true pingId none).toBytes ++ ([] ++ 0 :: _ :: 1 :: _ :: 1 :: rest)).take 17)
    obtain ⟨clock₁, more⟩ := ih (i + 1) (clock + 3) (by omega)
    refine ⟨clock₁, .loop ?_⟩
    simp only [act, request, bind_eq, pure_eq, call_bind, ret_bind, unroll]
    refine .reply e.mem.router _ rfl ?_
    rw [if_neg (by omega)]
    refine .reply buffer _ given ?_
    simp only [crafted, List.getElem?_eq_getElem within]
    exact .reply error _ sent more

/-- The ids of the servers in rotation, as they are listed. -/
def Router.ids (r : Router) : List UInt8 := r.rotation.map (·.id.toUInt8)

variable (world) in
theorem listServers_polled (covered : e.mem.router.Covered) (room : offline.length = e.mem.router.serverCnt.toNat) :
    ∃ clock, Runs (polled world) (listServers offline) e e.mem.router.ids { e with clock } := by
  have length : e.mem.router.ids.length = e.mem.router.serverCnt.toNat := by
    rw [Router.ids, List.length_map, covered.length_rotation]
  suffices turns : ∀ rest i clock, e.mem.router.serverCnt.toNat = i + rest.length →
      ∃ clock₁, Runs (polled world) (.loop (e.mem.router.ids.take i ++ rest, i) _ .ret) { e with clock }
        e.mem.router.ids { e with clock := clock₁ } from by
    have listed := turns offline 0 e.clock (by omega)
    rwa [List.take_zero, List.nil_append] at listed
  intro rest
  induction rest with
  | nil =>
    intro i clock all
    refine ⟨clock + 1, .loop ?_⟩
    simp only [act, request, bind_eq, pure_eq, call_bind, ret_bind, unroll]
    refine .reply e.mem.router _ rfl ?_
    rw [List.length_nil] at all
    rw [if_pos (by omega), List.append_nil, List.take_of_length_le (by omega)]
    exact .ret
  | cons b rest ih =>
    intro i clock left
    rw [List.length_cons] at left
    have within : i < e.mem.router.servers.length := by
      have fits : e.mem.router.serverCnt.toNat ≤ e.mem.router.servers.length := covered
      omega
    let server := e.mem.router.servers[i]
    have listed : e.mem.router.ids.take (i + 1) = e.mem.router.ids.take i ++ [server.id.toUInt8] := by
      have here : e.mem.router.ids[i]? = some server.id.toUInt8 := by
        rw [Router.ids, List.getElem?_map, Router.rotation, List.getElem?_take_of_lt (by omega),
          List.getElem?_eq_getElem within]
        rfl
      rw [List.take_add_one, here]
      rfl
    have stored : write (e.mem.router.ids.take i ++ b :: rest) i [server.id.toUInt8] =
        some (e.mem.router.ids.take (i + 1) ++ rest) := by
      have first : (e.mem.router.ids.take i).length = i := List.length_take_of_le (by omega)
      have one := write_append (e.mem.router.ids.take i)
        (show [b].length = [server.id.toUInt8].length from rfl) rest
      rw [first, List.singleton_append] at one
      rw [one, listed, List.append_assoc]
    obtain ⟨clock₁, more⟩ := ih (i + 1) (clock + 1) (by omega)
    refine ⟨clock₁, .loop ?_⟩
    simp only [act, request, bind_eq, pure_eq, call_bind, ret_bind, unroll]
    refine .reply e.mem.router _ rfl ?_
    rw [if_neg (by omega)]
    simp only [List.getElem?_eq_getElem within]
    rw [stored]
    exact more

/-- What is left of the list are the ids that no pong has. -/
theorem crossOff_polled (answering : Answering world) (distinct : (offline.take cnt.toNat).Nodup)
    (fits : cnt.toNat ≤ offline.length) :
    ∃ rest left clock, Runs (polled world) (crossOff offline cnt) e (rest, left) { e with pongs := [], clock } ∧
      left.toNat ≤ rest.length ∧
      rest.take left.toNat = (offline.take cnt.toNat).filter (· ∉ e.pongs) := by
  obtain ⟨buffer, given⟩ := polled_garbage (e := e) answering 1
  suffices turns : ∀ (pongs offline : Bytes) (cnt last : UInt8) clock,
      (offline.take cnt.toNat).Nodup → cnt.toNat ≤ offline.length →
      ∃ (rest : Bytes) (left : UInt8) (clock₁ : Nat),
        Runs (polled world) (.loop (offline, cnt, last) _ .ret) { e with pongs, clock }
          (rest, left) { e with pongs := [], clock := clock₁ } ∧
        left.toNat ≤ rest.length ∧ rest.take left.toNat = (offline.take cnt.toNat).filter (· ∉ pongs) from by
    obtain ⟨rest, left, clock, ran, found⟩ := turns e.pongs offline cnt (buffer.val.headD 0) (e.clock + 1) distinct fits
    refine ⟨rest, left, clock, ?_, found⟩
    simp only [crossOff, act, request, bind_eq, pure_eq, call_bind, ret_bind]
    exact .reply buffer _ given ran
  intro pongs
  induction pongs with
  | nil =>
    intro offline cnt last clock _ fits
    refine ⟨offline, cnt, clock, .loop ?_, fits, by simp⟩
    simp only [call_bind, unroll]
    exact .reply none _ rfl .ret
  | cons pong pongs ih =>
    intro offline cnt last clock distinct fits
    obtain ⟨rest, left, crossed, fits₁, without⟩ := crossOut_eq fits pong
    rw [distinct.erase_eq_filter] at without
    have distinct₁ : (rest.take left.toNat).Nodup := without ▸ distinct.filter _
    obtain ⟨rest₁, left₁, clock₁, ran, fits₂, kept⟩ := ih rest left pong clock distinct₁ fits₁
    refine ⟨rest₁, left₁, clock₁, .loop ?_, fits₂, ?_⟩
    · simp only [call_bind, unroll]
      refine .reply (some [pong]) _ rfl ?_
      simp only [List.headD_cons, crossed]
      exact ran
    · rw [kept, without, List.filter_filter]
      apply List.filter_congr
      intro b _
      by_cases same : b = pong <;> simp [same]

variable (world) in
theorem removeServer_polled (free : ∀ l, e.held l = false) (sized : e.mem.router.Sized)
    (there : ∃ server ∈ e.mem.router.rotation, server.id = dnsId.toUInt16) :
    ∃ router clock, Runs (polled world) (removeServer dnsId) e 0 { e with mem := { e.mem with router }, clock } ∧
      router.Sized ∧ router.rotation = e.mem.router.rotation.eraseP (·.id = dnsId.toUInt16) := by
  obtain ⟨deleted, router, shifted, _, _, rotation, covered, _⟩ := shiftOut_spec sized.covered dnsId
  obtain rfl : deleted = true := (shiftOut_deleted sized.covered shifted).mpr there
  obtain ⟨sized₁, same⟩ := shrinkServers_spec covered
  refine ⟨router.shrinkServers, e.clock + 2, ?_, sized₁, same.trans rotation⟩
  have taken : (e.setLock .mutex true).held .tcpMutex = false := free .tcpMutex
  have back : ((((e.setLock .mutex true).setLock .tcpMutex true).setLock .mutex false).setLock .tcpMutex false).held =
      e.held := by
    funext l
    cases l with
    | mutex => exact (free .mutex).symm
    | tcpMutex => exact (free .tcpMutex).symm
  simp only [removeServer, lock, unlock, act, request, bind_eq, pure_eq, call_bind, ret_bind]
  refine .reply () (e.setLock .mutex true) (by simp [polled, free]) ?_
  refine .reply () ((e.setLock .mutex true).setLock .tcpMutex true) (by simp [polled, taken]) ?_
  let e₁ : Polling := { (e.setLock .mutex true).setLock .tcpMutex true with
    mem := { e.mem with router }
    clock := e.clock + 1 }
  refine .reply true e₁ ?_ ?_
  · simp only [polled, Mem.perform, Polling.setLock, shifted, Option.map_some]
    rfl
  let e₂ : Polling := { e₁ with mem := { e.mem with router := router.shrinkServers }, clock := e.clock + 2 }
  refine .reply () e₂ rfl (.reply () (e₂.setLock .mutex false) rfl ?_)
  refine .reply () ((e₂.setLock .mutex false).setLock .tcpMutex false) rfl ?_
  rw [← back]
  exact .ret

/-- With distinct keys the first match is the only one. -/
theorem eraseP_eq_filter {α β : Type} [DecidableEq β] {f : α → β} {l : List α} (distinct : (l.map f).Nodup) (b : β) :
    l.eraseP (f · = b) = l.filter (f · ≠ b) := by
  induction l with
  | nil => rfl
  | cons a l ih =>
    obtain ⟨absent, distinct⟩ := List.nodup_cons.mp distinct
    by_cases matched : f a = b
    · have others : ∀ c ∈ l, f c ≠ b := fun c member same =>
        absent (List.mem_map.mpr ⟨c, member, same.trans matched.symm⟩)
      rw [List.eraseP_cons_of_pos (by simpa using matched), List.filter_cons_of_neg (by simpa using matched)]
      exact (List.filter_eq_self.mpr (by simpa using others)).symm
    · rw [List.eraseP_cons_of_neg (by simpa using matched), List.filter_cons_of_pos (by simpa using matched),
        ih distinct]

variable (world) in
theorem removeServers_polled (free : ∀ l, e.held l = false) (sized : e.mem.router.Sized)
    (distinct : (e.mem.router.rotation.map (·.id)).Nodup) (once : gone.Nodup)
    (there : ∀ dnsId ∈ gone, ∃ server ∈ e.mem.router.rotation, server.id = dnsId.toUInt16) :
    ∃ router clock, Runs (polled world) (removeServers gone) e () { e with mem := { e.mem with router }, clock } ∧
      router.Sized ∧
      router.rotation = e.mem.router.rotation.filter fun server => server.id ∉ gone.map (·.toUInt16) := by
  induction gone generalizing e with
  | nil => exact ⟨e.mem.router, e.clock, .ret, sized, by simp⟩
  | cons dnsId gone ih =>
    obtain ⟨absent, once⟩ := List.nodup_cons.mp once
    obtain ⟨here, there⟩ := List.forall_mem_cons.mp there
    obtain ⟨router, clock, first, sized₁, rotation⟩ := removeServer_polled world free sized here
    rw [eraseP_eq_filter distinct] at rotation
    have distinct₁ : (router.rotation.map (·.id)).Nodup := by
      rw [rotation]
      exact distinct.sublist (List.filter_sublist.map _)
    have there₁ : ∀ other ∈ gone, ∃ server ∈ router.rotation, server.id = other.toUInt16 := by
      intro other member
      obtain ⟨server, online, same⟩ := there other member
      refine ⟨server, ?_, same⟩
      rw [rotation, List.mem_filter]
      refine ⟨online, ?_⟩
      have differ : other ≠ dnsId := fun equal => absent (equal ▸ member)
      simpa [same, UInt8.toUInt16_inj] using differ
    obtain ⟨router₁, clock₁, rest, sized₂, rotation₁⟩ :=
      ih (e := { e with mem := { e.mem with router }, clock }) free sized₁ distinct₁ once there₁
    refine ⟨router₁, clock₁, first.bind rest, sized₂, ?_⟩
    rw [rotation₁]
    change router.rotation.filter _ = _
    rw [rotation, List.filter_filter]
    apply List.filter_congr
    intro server _
    by_cases same : server.id = dnsId.toUInt16 <;> simp [same]

/-- The round ends with 0, and the servers whose id is among the pongs stay, in their order. -/
theorem queryResponseTime_keeps (answering : Answering world) (free : ∀ l, e.held l = false)
    (sized : e.mem.router.Sized) (small : ∀ server ∈ e.mem.router.rotation, server.id.toNat < 256)
    (distinct : (e.mem.router.rotation.map (·.id)).Nodup) :
    ∃ e₁, (∀ code e₂, Runs (polled world) queryResponseTime e code e₂ ↔ code = 0 ∧ e₂ = e₁) ∧
      e₁.mem.router.Sized ∧
      e₁.mem.router.rotation =
        e.mem.router.rotation.filter (fun server => server.id ∈ e.pongs.map (·.toUInt16)) ∧
      e₁.mem.router.serverCnt.toNat = e₁.mem.router.rotation.length ∧ e₁.held = e.held := by
  have back : ∀ server ∈ e.mem.router.rotation, server.id.toUInt8.toUInt16 = server.id :=
    fun server online => Server.id_of_byte (small server online)
  have ids : e.mem.router.ids.map (·.toUInt16) = e.mem.router.rotation.map (·.id) := by
    rw [Router.ids, List.map_map]
    exact List.map_congr_left back
  have once : e.mem.router.ids.Nodup := (ids ▸ distinct).of_map _
  have length : e.mem.router.ids.length = e.mem.router.serverCnt.toNat := by
    rw [Router.ids, List.length_map, sized.covered.length_rotation]
  obtain ⟨t₁, pinged⟩ := sendPings_polled (e := { e with clock := e.clock + 1 }) answering sized.covered
  obtain ⟨offline, given⟩ := polled_garbage (e := { e with clock := t₁ + 1 }) answering e.mem.router.serverCnt.toNat
  obtain ⟨t₂, listed⟩ := listServers_polled world (e := { e with clock := t₁ + 3 }) sized.covered
    offline.property
  have whole : e.mem.router.ids.take e.mem.router.serverCnt.toNat = e.mem.router.ids :=
    List.take_of_length_le (by omega)
  obtain ⟨rest, left, t₃, crossed, fits, silent⟩ := crossOff_polled (e := { e with clock := t₂ }) answering
    (whole.symm ▸ once) (Nat.le_of_eq length.symm)
  rw [whole] at silent
  have silent₁ : ∀ dnsId ∈ rest.take left.toNat, ∃ server ∈ e.mem.router.rotation, server.id = dnsId.toUInt16 := by
    intro dnsId member
    rw [silent] at member
    obtain ⟨server, online, rfl⟩ := List.mem_map.mp (List.mem_of_mem_filter member)
    exact ⟨server, online, (back server online).symm⟩
  obtain ⟨router, t₄, removed, sized₁, rotation⟩ := removeServers_polled world
    (e := { e with pongs := [], clock := t₃ + 1 }) free sized distinct (silent ▸ once.filter _) silent₁
  let e₁ : Polling := { e with mem := { e.mem with router }, pongs := [], clock := t₄ }
  have ran : Runs (polled world) queryResponseTime e 0 e₁ := by
    simp only [queryResponseTime, act, request, bind_eq, pure_eq, call_bind, ret_bind]
    refine .reply e.mem.router _ rfl (pinged.bind ?_)
    refine .reply e.mem.router _ rfl (.reply offline _ given (.reply e.mem.router _ rfl ?_))
    refine listed.bind (crossed.bind (.reply e.mem.router _ rfl ?_))
    rw [if_neg (not_not.mpr rfl), if_neg (Nat.not_lt.mpr fits)]
    exact removed.bind .ret
  refine ⟨e₁, fun code e₂ => ran.iff, sized₁, rotation.trans ?_, ?_, rfl⟩
  · apply List.filter_congr
    intro server online
    have listed : server.id.toUInt8 ∈ e.mem.router.ids := List.mem_map_of_mem online
    have among : ∀ l : List UInt8, server.id ∈ l.map (·.toUInt16) ↔ server.id.toUInt8 ∈ l := by
      intro l
      constructor
      · intro member
        obtain ⟨b, within, same⟩ := List.mem_map.mp member
        rwa [UInt8.toUInt16_inj.mp ((back server online).trans same.symm)]
      · intro member
        exact List.mem_map.mpr ⟨_, member, back server online⟩
    rw [silent]
    simp [among, listed]
  · exact sized₁.covered.length_rotation.symm

end

/-- Every send succeeds, and memory is zero. -/
def calmWorld : Nat → World := fun _ => silentWorld

/-- Servers 1, 2 and 3 in rotation; 3 has answered twice, and so has some 9. -/
def threePolled : Polling where
  mem := { startMem .roundRobin with
    router := ⟨.roundRobin, [createDnsServer [] 1 0 0, createDnsServer [] 2 0 0, createDnsServer [] 3 0 0], 3, 0⟩ }
  held _ := false
  pongs := [3, 9, 3]
  clock := 0

theorem queryResponseTime_keeps_third :
    ∃ e₁, (∀ code e₂, Runs (polled calmWorld) queryResponseTime threePolled code e₂ ↔ code = 0 ∧ e₂ = e₁) ∧
      e₁.mem.router.Sized ∧
      e₁.mem.router.rotation =
        threePolled.mem.router.rotation.filter (fun server => server.id ∈ threePolled.pongs.map (·.toUInt16)) ∧
      e₁.mem.router.serverCnt.toNat = e₁.mem.router.rotation.length ∧ e₁.held = threePolled.held :=
  queryResponseTime_keeps ⟨fun _ _ _ => rfl, fun _ _ => rfl⟩ (fun _ => rfl) rfl (by decide) (by decide)

end DnsServer
