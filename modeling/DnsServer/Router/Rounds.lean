import DnsServer.Router.Health

/-! A health round judges every server by its own pings, as long as the pongs it takes answer them. -/
namespace DnsServer
open Process Program Relation Memory

/-- What is on the way has been sent, by the servers that there are. -/
structure Genuine (all : Server → Prop) (e : Health) : Prop where
  covered : e.mem.router.Covered
  servers : ∀ server ∈ e.rotation, all server
  pings : ∀ ping ∈ e.pings, IsPing ping.message
  pongs : ∀ pong, pong ∈ e.pongs ∨ pong ∈ e.socket →
    pong ∈ e.answers ∧ all pong.server ∧ pong.message = [pong.server.id.toUInt8]

/-- The second is as the first, or later, and nothing has been removed. -/
structure Onward (e e₁ : Health) : Prop where
  round : e₁.round = e.round
  rotation : e.rotation <+: e₁.rotation
  answers : e.answers ⊆ e₁.answers
  joined : ∀ server, server ∉ e₁.joined →
    server ∉ e.joined ∧ e₁.rotation.count server = e.rotation.count server

theorem Onward.refl : Onward e e :=
  ⟨rfl, List.prefix_rfl, fun _ member => member, fun _ absent => ⟨absent, rfl⟩⟩

theorem Onward.trans (first : Onward e e₁) (second : Onward e₁ e₂) : Onward e e₂ where
  round := second.round.trans first.round
  rotation := first.rotation.trans second.rotation
  answers := fun _ member => second.answers (first.answers member)
  joined server absent := by
    obtain ⟨absent, same⟩ := second.joined server absent
    obtain ⟨absent, same₁⟩ := first.joined server absent
    exact ⟨absent, same.trans same₁⟩

/-- Nothing has been added in between when the end is as the beginning. -/
theorem Onward.same (first : Onward e e₁) (second : Onward e₁ e₂) (unchanged : e₂.rotation = e.rotation) :
    e₁.rotation = e.rotation := by
  have back : e₁.rotation <+: e.rotation := unchanged ▸ second.rotation
  exact back.eq_of_length_le first.rotation.length_le

theorem Onward.answered (onward : Onward e e₁) (answered : e.Answered server) : e₁.Answered server := by
  obtain ⟨pong, sent, current, mine⟩ := answered
  exact ⟨pong, onward.answers sent, current.trans onward.round.symm, mine⟩

section
variable {all : Server → Prop}

/-- What happens to messages on the way only. -/
theorem messages_onward (genuine : Genuine all e) (mem : e₁.mem = e.mem) (round : e₁.round = e.round)
    (joined : e₁.joined = e.joined) (answers : e₁.answers = e.answers)
    (pings : ∀ ping ∈ e₁.pings, IsPing ping.message)
    (pongs : ∀ pong, pong ∈ e₁.pongs ∨ pong ∈ e₁.socket → pong ∈ e.pongs ∨ pong ∈ e.socket) :
    Genuine all e₁ ∧ Onward e e₁ := by
  have rotation : e₁.rotation = e.rotation := by rw [Health.rotation, mem, Health.rotation]
  constructor
  · constructor
    · rw [mem]
      exact genuine.covered
    · rw [rotation]
      exact genuine.servers
    · exact pings
    · intro pong there
      rw [answers]
      exact genuine.pongs pong (pongs pong there)
  · constructor
    · exact round
    · rw [rotation]
    · rw [answers]
      exact fun _ member => member
    · intro server absent
      rw [rotation]
      exact ⟨joined ▸ absent, rfl⟩

theorem drift_onward (genuine : Genuine all e) (drift : Drift all e e₁) : Genuine all e₁ ∧ Onward e e₁ := by
  cases drift with
  | @join dns router _ online _ added =>
    obtain ⟨sized, grown, _⟩ := addServer_spec genuine.covered dns added
    constructor
    · refine ⟨sized.covered, ?_, genuine.pings, genuine.pongs⟩
      intro server member
      change server ∈ router.rotation at member
      rw [grown, List.mem_append, List.mem_singleton] at member
      rcases member with member | rfl
      · exact genuine.servers server member
      · exact online
    · refine ⟨rfl, ⟨[dns], grown.symm⟩, fun _ member => member, ?_⟩
      intro server absent
      rw [List.mem_cons, not_or] at absent
      refine ⟨absent.2, ?_⟩
      change router.rotation.count server = _
      have none : [dns].count server = 0 := List.count_eq_zero.mpr (by simpa using absent.1)
      rw [grown, List.count_append, none]
      rfl
  | @answer ping server coms request dnsQuery buffer request₁ packets _ pinged online _ full handled =>
    obtain ⟨_, reply⟩ := ping_answered server coms (genuine.pings ping pinged) full dnsQuery buffer
    cases reply.symm.trans handled
    constructor
    · refine ⟨genuine.covered, genuine.servers, ?_, ?_⟩
      · exact fun ping member => genuine.pings ping (List.mem_of_mem_erase member)
      rintro pong there
      simp only [Health.answered, List.mem_append] at there ⊢
      rcases there with (old | new) | old
      · obtain ⟨sent, known⟩ := genuine.pongs pong (.inl old)
        exact ⟨.inl sent, known⟩
      · refine ⟨.inr new, ?_⟩
        simp only [List.mem_map, List.mem_filter, List.mem_singleton] at new
        obtain ⟨_, ⟨rfl, _⟩, rfl⟩ := new
        exact ⟨online, rfl⟩
      · obtain ⟨sent, known⟩ := genuine.pongs pong (.inr old)
        exact ⟨.inl sent, known⟩
    · exact ⟨rfl, List.prefix_rfl, List.subset_append_left _ _, fun _ absent => ⟨absent, rfl⟩⟩
  | @deliver pong _ sent =>
    refine messages_onward genuine rfl rfl rfl rfl genuine.pings ?_
    rintro pong₁ (there | there)
    · exact .inl (List.mem_of_mem_erase there)
    · rcases List.mem_append.mp there with there | there
      · exact .inr there
      · rw [List.mem_singleton.mp there]
        exact .inl sent

theorem drifts_onward (genuine : Genuine all e) (drifts : ReflTransGen (Drift all) e e₁) :
    Genuine all e₁ ∧ Onward e e₁ := by
  induction drifts with
  | refl => exact ⟨genuine, .refl⟩
  | tail _ drift ih =>
    obtain ⟨genuine, onward⟩ := drift_onward ih.1 drift
    exact ⟨genuine, ih.2.trans onward⟩

/-- A request that removes no server, and sends nothing but pings. -/
def RemovesNone : platform.Call → Prop
  | .lock _ => True
  | .unlock _ => True
  | .act .router => True
  | .act (.garbage _) => True
  | .act (.sendPacket _ message) => IsPing message
  | .act .recvfrom => True
  | _ => False

/-- What such a request tells of the state. -/
def Tells (all : Server → Prop) (e : Health) : (call : platform.Call) → call.Reply → Prop
  | .act .router, router => router = e.mem.router
  | .act .recvfrom, some pong => ∃ server, all server ∧ e.Answered server ∧ pong = [server.id.toUInt8]
  | _, _ => True

theorem removesNone_reply {op : platform.Call} {r : op.Reply} (spares : RemovesNone op) (genuine : Genuine all e)
    (answered : e.Replies Health.Timely op r e₁) : (Genuine all e₁ ∧ Onward e e₁) ∧ Tells all e op r := by
  obtain ⟨current, world, answered⟩ := answered
  cases op with
  | lock l =>
    simp only [Health.reply, Option.ite_none_left_eq_some] at answered
    obtain ⟨_, done⟩ := answered
    cases done
    exact ⟨messages_onward genuine rfl rfl rfl rfl genuine.pings fun _ there => there, trivial⟩
  | unlock l =>
    cases answered
    exact ⟨messages_onward genuine rfl rfl rfl rfl genuine.pings fun _ there => there, trivial⟩
  | act op =>
    cases op with
    | router =>
      cases answered
      exact ⟨⟨genuine, .refl⟩, rfl⟩
    | garbage n =>
      simp only [Health.reply, Mem.perform, Option.map_map, Option.map_eq_some_iff] at answered
      obtain ⟨_, _, done⟩ := answered
      cases done
      exact ⟨⟨genuine, .refl⟩, trivial⟩
    | sendPacket portNum message =>
      simp only [Health.reply, Option.map_eq_some_iff] at answered
      obtain ⟨_, _, done⟩ := answered
      cases done
      refine ⟨messages_onward genuine rfl rfl rfl rfl ?_ fun _ there => there, trivial⟩
      exact List.forall_mem_cons.mpr ⟨spares, genuine.pings⟩
    | recvfrom =>
      cases waiting : e.socket with
      | nil =>
        simp only [Health.reply, waiting] at answered
        cases answered
        exact ⟨⟨genuine, .refl⟩, trivial⟩
      | cons pong rest =>
        simp only [Health.reply, waiting] at answered
        cases answered
        obtain ⟨sent, online, message⟩ := genuine.pongs pong (.inr (waiting ▸ List.mem_cons_self))
        constructor
        · refine messages_onward genuine rfl rfl rfl rfl genuine.pings ?_
          rintro pong₁ (there | there)
          · exact .inl there
          · exact .inr (waiting ▸ List.mem_cons_of_mem _ there)
        · refine ⟨pong.server, online, ⟨pong, sent, current rfl pong (by simp [waiting]), rfl⟩, ?_⟩
          rw [message]
          rfl
    | _ => exact spares.elim
  | _ => exact spares.elim

/-- Such a request, whatever happens after it. -/
theorem obeys_removesNone {op : platform.Call} {k : op.Reply → Proc α} {post : α → Health → Prop}
    (spares : RemovesNone op) (genuine : Genuine all e)
    (next : ∀ r e₁, Genuine all e₁ → Onward e e₁ → Tells all e op r →
      (k r).Obeys (relying (Health.Replies Health.Timely) (Drift all)) post e₁) :
    (@Program.call platform.interface _ op k).Obeys (relying (Health.Replies Health.Timely) (Drift all)) post e := by
  refine obeys_relying fun r e₁ answered e₂ drifts => ?_
  obtain ⟨⟨genuine₁, onward₁⟩, tells⟩ := removesNone_reply spares genuine answered
  obtain ⟨genuine₂, onward₂⟩ := drifts_onward genuine₁ drifts
  exact next r e₂ genuine₂ (onward₁.trans onward₂) tells

/-- There is no answer to undefined behaviour. -/
theorem obeys_impossible {post : α → Health → Prop} :
    (fault : Proc α).Obeys (relying (Health.Replies Health.Timely) (Drift all)) post e :=
  obeys_relying fun r => r.elim

theorem sendPings_pings (genuine : Genuine all e) :
    sendPings.Obeys (relying (Health.Replies Health.Timely) (Drift all))
      (fun _ e₁ => Genuine all e₁ ∧ Onward e e₁) e := by
  refine obeys_relying_loop (fun _ e₁ => Genuine all e₁ ∧ Onward e e₁) ⟨genuine, .refl⟩ ?_
  rintro i e₁ ⟨genuine, onward⟩
  simp only [act, request, bind_eq, pure_eq, call_bind, ret_bind]
  refine obeys_removesNone trivial genuine fun router e₂ genuine onward₂ tells => ?_
  split
  · exact ⟨genuine, onward.trans onward₂⟩
  refine obeys_removesNone trivial genuine fun buffer e₃ genuine onward₃ _ => ?_
  split
  · exact obeys_impossible
  next crafted =>
  split
  · exact obeys_impossible
  refine obeys_removesNone ⟨buffer.val, _, _, buffer.property, crafted, rfl⟩ genuine fun _ e₄ genuine onward₄ _ => ?_
  exact ⟨genuine, ((onward.trans onward₂).trans onward₃).trans onward₄⟩

theorem rotation_getElem? {e : Health} (within : i < e.mem.router.serverCnt.toNat) :
    e.rotation[i]? = e.mem.router.servers[i]? := by
  rw [Health.rotation, Router.rotation, List.getElem?_take_of_lt within]

/-- When nobody joins meanwhile, the list has the ids of the rotation. -/
theorem listServers_lists (genuine : Genuine all e) (offline : Bytes) :
    (listServers offline).Obeys (relying (Health.Replies Health.Timely) (Drift all))
      (fun offline e₁ => Genuine all e₁ ∧ Onward e e₁ ∧
        (e₁.rotation = e.rotation → offline.take e.rotation.length = e.rotation.map (·.id.toUInt8))) e := by
  refine obeys_relying_loop (fun listed e₁ => Genuine all e₁ ∧ Onward e e₁ ∧
    (e₁.rotation = e.rotation → listed.1.take listed.2 = (e.rotation.take listed.2).map (·.id.toUInt8)))
    ⟨genuine, .refl, by simp⟩ ?_
  rintro ⟨offline, i⟩ e₁ ⟨genuine, onward, listed⟩
  simp only [act, request, bind_eq, pure_eq, call_bind, ret_bind]
  refine obeys_removesNone trivial genuine fun router e₂ genuine₂ onward₂ tells => ?_
  cases tells
  have onward₂' := onward.trans onward₂
  split
  · next all_ =>
    refine ⟨genuine₂, onward₂', fun unchanged => ?_⟩
    have same := onward.same onward₂ unchanged
    have few : e.rotation.length ≤ i := by
      rw [← same, Health.rotation, genuine.covered.length_rotation]
      exact all_
    have lists := congrArg (List.take e.rotation.length) (listed same)
    rwa [List.take_take, Nat.min_eq_left few, ← List.map_take, List.take_take, Nat.min_eq_left few,
      List.take_length] at lists
  next more =>
  split
  · exact obeys_impossible
  next server stored =>
  split
  · exact obeys_impossible
  next written =>
  refine ⟨genuine₂, onward₂', fun unchanged => ?_⟩
  have same := onward.same onward₂ unchanged
  have member : e.rotation[i]? = some server := by
    rw [← same, rotation_getElem? (Nat.not_le.mp more), stored]
  have extended := take_write written
  rw [listed same] at extended
  refine extended.trans ?_
  rw [List.take_add_one, member]
  simp

/-- Only servers that answered are crossed off the list. -/
theorem crossOff_keeps (genuine : Genuine all e) (offline : Bytes) (cnt : UInt8) :
    (crossOff offline cnt).Obeys (relying (Health.Replies Health.Timely) (Drift all))
      (fun rest e₁ => Genuine all e₁ ∧ Onward e e₁ ∧
        ∀ b, (∀ server, all server → e₁.Answered server → server.id.toUInt8 ≠ b) →
          (offline.take cnt.toNat).count b ≤ (rest.1.take rest.2.toNat).count b) e := by
  simp only [crossOff, act, request, bind_eq, pure_eq, call_bind, ret_bind]
  refine obeys_removesNone trivial genuine fun buffer e₀ genuine onward _ => ?_
  refine obeys_relying_loop (fun rest e₁ => Genuine all e₁ ∧ Onward e e₁ ∧
    ∀ b, (∀ server, all server → e₁.Answered server → server.id.toUInt8 ≠ b) →
      (offline.take cnt.toNat).count b ≤ (rest.1.take rest.2.1.toNat).count b)
    ⟨genuine, onward, fun _ _ => le_rfl⟩ ?_
  rintro ⟨rest, left, last⟩ e₁ ⟨genuine, onward, kept⟩
  refine obeys_removesNone trivial genuine fun got e₂ genuine onward₂ tells => ?_
  have kept₂ : ∀ b, (∀ server, all server → e₂.Answered server → server.id.toUInt8 ≠ b) →
      (offline.take cnt.toNat).count b ≤ (rest.take left.toNat).count b := by
    intro b silent
    exact kept b fun server online answered => silent server online (onward₂.answered answered)
  cases got with
  | none => exact ⟨genuine, onward.trans onward₂, kept₂⟩
  | some pong =>
    obtain ⟨server, online, answered, rfl⟩ := tells
    simp only
    split
    · exact obeys_impossible
    next rest₁ left₁ crossed =>
    have fits : left.toNat ≤ rest.length := by
      have within := crossOut_fits crossed
      omega
    obtain ⟨_, _, crossed₁, _, without⟩ := crossOut_eq fits server.id.toUInt8
    cases crossed.symm.trans crossed₁
    refine ⟨genuine, onward.trans onward₂, fun b silent => (kept₂ b silent).trans ?_⟩
    have other : b ≠ server.id.toUInt8 := (silent server online (onward₂.answered answered)).symm
    rw [without, List.count_erase_of_ne other]

/-- Every server in the rotation has answered, or joined since, or is yet to be removed. -/
def Pending (all : Server → Prop) (offline : List UInt8) (e : Health) : Prop :=
  ∀ server, all server → ¬ e.Answered server → server ∉ e.joined →
    e.rotation.count server ≤ offline.count server.id.toUInt8

theorem Pending.onward (pending : Pending all offline e) (onward : Onward e e₁) : Pending all offline e₁ := by
  intro server online silent absent
  obtain ⟨absent, same⟩ := onward.joined server absent
  rw [same]
  exact pending server online (fun answered => silent (onward.answered answered)) absent

theorem Pending.judged (pending : Pending all [] e) (genuine : Genuine all e) : e.Judged := by
  intro server _ stays absent
  by_contra silent
  have none := pending server (genuine.servers server stays) silent absent
  rw [List.count_nil] at none
  exact absurd (List.count_pos_iff.mpr stays) (Nat.not_lt.mpr none)

/-- The byte of a pong tells who sent it. -/
theorem Population.id_of_byte (population : Population all) (online : all server) :
    server.id.toUInt8.toUInt16 = server.id :=
  Server.id_of_byte (population.small server online)

theorem Population.byte_distinct (population : Population all) (online : all server) (known : all other)
    (same : server.id.toUInt8 = other.id.toUInt8) : server = other := by
  apply population.distinct server other online known
  rw [← population.id_of_byte online, ← population.id_of_byte known, same]

/-- The shift takes a server of that id out of the rotation, if there is one. -/
theorem shiftOut_pending (population : Population all) (genuine : Genuine all e)
    (pending : Pending all (dnsId :: offline) e) (shifted : e.mem.router.shiftOut dnsId = some (deleted, router)) :
    let e₁ := { e with mem := { e.mem with router } }
    Genuine all e₁ ∧ Pending all offline e₁ := by
  obtain ⟨deleted₁, router₁, shifted₁, _, _, erased, covered, _⟩ := shiftOut_spec genuine.covered dnsId
  cases shifted.symm.trans shifted₁
  change router.rotation = e.rotation.eraseP _ at erased
  constructor
  · refine ⟨covered, ?_, genuine.pings, genuine.pongs⟩
    intro server member
    change server ∈ router.rotation at member
    rw [erased] at member
    exact genuine.servers server (List.mem_of_mem_eraseP member)
  · intro server online silent absent
    change router.rotation.count server ≤ _
    have before := pending server online silent absent
    rw [erased]
    by_cases mine : server.id.toUInt8 = dnsId
    · subst mine
      have id16 := population.id_of_byte online
      by_cases there : server ∈ e.rotation
      · obtain ⟨gone, first, rest, _, same, whole, left⟩ := List.exists_of_eraseP
          (p := fun s => decide (s.id = server.id.toUInt8.toUInt16)) there (by simp [id16])
        have member : gone ∈ e.rotation := by
          rw [whole]
          simp
        have mine : gone = server := by
          apply population.distinct gone server (genuine.servers gone member) online
          simpa [id16] using same
        rw [left]
        rw [whole, mine] at before
        simp only [List.count_append, List.count_cons_self] at before ⊢
        omega
      · rw [List.count_eq_zero.mpr fun member => there (List.mem_of_mem_eraseP member)]
        exact Nat.zero_le _
    · rw [List.count_cons_of_ne (Ne.symm mine)] at before
      exact (List.eraseP_sublist.count_le server).trans before

theorem shrink_pending (genuine : Genuine all e) (pending : Pending all offline e) :
    let e₁ := { e with mem := { e.mem with router := e.mem.router.shrinkServers } }
    Genuine all e₁ ∧ Pending all offline e₁ := by
  obtain ⟨sized, rotation⟩ := shrinkServers_spec genuine.covered
  constructor
  · refine ⟨sized.covered, ?_, genuine.pings, genuine.pongs⟩
    intro server member
    change server ∈ e.mem.router.shrinkServers.rotation at member
    rw [rotation] at member
    exact genuine.servers server member
  · intro server online silent absent
    exact (congrArg (List.count server) rotation).trans_le (pending server online silent absent)

theorem removeServer_pending (population : Population all) (genuine : Genuine all e)
    (pending : Pending all (dnsId :: offline) e) :
    (removeServer dnsId).Obeys (relying (Health.Replies Health.Timely) (Drift all))
      (fun _ e₁ => Genuine all e₁ ∧ Pending all offline e₁) e := by
  simp only [removeServer, lock, unlock, act, request, bind_eq, pure_eq, call_bind, ret_bind]
  refine obeys_removesNone trivial genuine fun _ e₁ genuine onward _ => ?_
  refine obeys_removesNone trivial genuine fun _ e₂ genuine onward₂ _ => ?_
  refine obeys_relying fun deleted e₃ answered e₄ drifts => ?_
  obtain ⟨_, world, answered⟩ := answered
  simp only [Health.reply, Mem.perform, Option.map_map, Option.map_eq_some_iff] at answered
  obtain ⟨⟨deleted, router⟩, shifted, done⟩ := answered
  cases done
  obtain ⟨genuine, pending⟩ := shiftOut_pending population genuine ((pending.onward onward).onward onward₂) shifted
  obtain ⟨genuine, onward⟩ := drifts_onward genuine drifts
  have pending := pending.onward onward
  split
  · exact ⟨genuine, pending⟩
  refine obeys_relying fun _ e₅ answered e₆ drifts => ?_
  obtain ⟨_, world, answered⟩ := answered
  cases answered
  obtain ⟨genuine, pending⟩ := shrink_pending genuine pending
  obtain ⟨genuine, onward⟩ := drifts_onward genuine drifts
  refine obeys_removesNone trivial genuine fun _ e₇ genuine onward₇ _ => ?_
  refine obeys_removesNone trivial genuine fun _ e₈ genuine onward₈ _ => ?_
  exact ⟨genuine, ((pending.onward onward).onward onward₇).onward onward₈⟩

theorem removeServers_pending (population : Population all) (genuine : Genuine all e)
    (pending : Pending all offline e) :
    (removeServers offline).Obeys (relying (Health.Replies Health.Timely) (Drift all))
      (fun _ e₁ => Genuine all e₁ ∧ Pending all [] e₁) e := by
  induction offline generalizing e with
  | nil => exact ⟨genuine, pending⟩
  | cons dnsId offline ih =>
    apply (removeServer_pending population genuine pending).mono _ |>.bind
    rintro _ e₁ ⟨genuine, pending⟩
    exact ih genuine pending

/-- Whoever is on the list, and has not answered, is left on it. -/
theorem listed_pending (population : Population all)
    (keeps : ∀ b, (∀ server, all server → e.Answered server → server.id.toUInt8 ≠ b) →
      (e.rotation.map (·.id.toUInt8)).count b ≤ offline.count b) : Pending all offline e := by
  intro server online silent _
  apply (List.count_le_count_map (f := (·.id.toUInt8))).trans
  apply keeps
  intro other known answered same
  cases population.byte_distinct known online same
  exact silent answered

/-- A round in which no server is added has the list of those it began with. -/
theorem queryResponseTime_judges (population : Population all) (genuine : Genuine all e) :
    queryResponseTime.Obeys (relying (Health.Replies Health.Timely) (Drift all))
      (fun code e₁ => Genuine all e₁ ∧ (code = 0 → e₁.Judged)) e := by
  simp only [queryResponseTime, act, request, bind_eq, pure_eq, call_bind, ret_bind]
  refine obeys_removesNone trivial genuine fun router e₁ genuine₁ onward₁ tells => ?_
  cases tells
  refine .bind ((sendPings_pings genuine₁).mono ?_)
  rintro _ e₂ ⟨genuine₂, onward₂⟩
  refine obeys_removesNone trivial genuine₂ fun router e₃ genuine₃ onward₃ _ => ?_
  refine obeys_removesNone trivial genuine₃ fun buffer e₄ genuine₄ onward₄ _ => ?_
  refine obeys_removesNone trivial genuine₄ fun router e₅ genuine₅ onward₅ tells => ?_
  cases tells
  refine .bind ((listServers_lists genuine₅ buffer.val).mono ?_)
  rintro offline e₆ ⟨genuine₆, onward₆, lists⟩
  refine .bind ((crossOff_keeps genuine₆ offline e₄.mem.router.serverCnt).mono ?_)
  rintro ⟨rest, left⟩ e₇ ⟨genuine₇, onward₇, keeps⟩
  refine obeys_removesNone trivial genuine₇ fun router e₈ genuine₈ onward₈ tells => ?_
  cases tells
  split
  · exact ⟨genuine₈, by rintro ⟨⟩⟩
  next unchanged =>
  have onward₄ := ((onward₁.trans onward₂).trans onward₃).trans onward₄
  have whole : e₇.rotation = e.rotation := by
    refine ((onward₄.trans (onward₅.trans (onward₆.trans onward₇))).rotation.eq_of_length ?_).symm
    rw [Health.rotation, genuine.covered.length_rotation, Health.rotation, genuine₇.covered.length_rotation,
      Decidable.of_not_not unchanged]
  -- The count has not changed, so nobody has joined: all that was read is of one rotation.
  have same₄ := onward₄.same (onward₅.trans (onward₆.trans onward₇)) whole
  have same₅ := (onward₄.trans onward₅).same (onward₆.trans onward₇) whole
  have same₆ := ((onward₄.trans onward₅).trans onward₆).same onward₇ whole
  have count : e₄.mem.router.serverCnt.toNat = e₅.rotation.length := by
    rw [same₅, ← same₄, Health.rotation, genuine₄.covered.length_rotation]
  have pending : Pending all (rest.take left.toNat) e₇ := by
    apply listed_pending population
    rw [whole, ← same₅, ← lists (same₆.trans same₅.symm), ← count]
    exact keeps
  split
  · exact obeys_impossible.bind
  refine .bind ((removeServers_pending population genuine₈ (pending.onward onward₈)).mono ?_)
  rintro _ e₉ ⟨genuine₉, pending⟩
  exact ⟨genuine₉, fun _ => pending.judged genuine₉⟩

theorem rounds_step {X Y : Rounds} (population : Population all) (moved : Rounds.Step all Health.Timely X Y)
    (secured : Secured (Health.Replies Health.Timely) (Drift all) X.1
      (fun code e => Genuine all e ∧ (code = 0 → e.Judged)) X.2) :
    Secured (Health.Replies Health.Timely) (Drift all) Y.1
      (fun code e => Genuine all e ∧ (code = 0 → e.Judged)) Y.2 := by
  cases moved with
  | within shared => exact secured.step shared
  | next =>
    obtain ⟨genuine, _⟩ := secured.ret
    have begun : Genuine all (Health.begin _) := ⟨genuine.covered, genuine.servers, genuine.pings, genuine.pongs⟩
    intro e₁ drifts
    exact queryResponseTime_judges population (drifts_onward begun drifts).1

/-- In a run whose rounds take pongs of their own pings only, every round that returns 0 has judged each
server by a ping of that round. -/
theorem rounds_judge {X Y : Rounds} (population : Population all) (start : X.Start all)
    (run : ReflTransGen (Rounds.Step all Health.Timely) X Y) (returned : Y.1 = .ret 0) : Y.2.Judged := by
  have secured : Secured (Health.Replies Health.Timely) (Drift all) Y.1
      (fun code e => Genuine all e ∧ (code = 0 → e.Judged)) Y.2 := by
    clear returned
    induction run with
    | refl =>
      have genuine : Genuine all X.2 := by
        refine ⟨start.sized.covered, start.servers, ?_, ?_⟩
        · simp [start.pings]
        · simp [start.pongs, start.socket]
      intro e₁ drifts
      rw [start.program]
      exact queryResponseTime_judges population (drifts_onward genuine drifts).1
    | tail _ moved ih => exact rounds_step population moved ih
  rw [returned] at secured
  exact secured.ret.2 rfl

end

/-! Runs of rounds whose servers are seen to at fixed moments. -/

section
variable {all : Server → Prop} {allowed : Health → platform.Call → Prop} {h : Handler platform.interface Health}

theorem undisturbed {p : Proc α} (replies : ∀ e op r e₁, h e op = some (r, e₁) → e.Replies allowed op r e₁)
    (ran : Runs h p e a e₁) (f : α → Proc UInt8) : ReflTransGen (Rounds.Step all allowed) (p.bind f, e) (f a, e₁) :=
  ReflTransGen.mono (fun _ _ => Rounds.Step.within) _ _ (ran.shared replies f)

theorem undisturbed_end (replies : ∀ e op r e₁, h e op = some (r, e₁) → e.Replies allowed op r e₁)
    (ran : Runs h p e code e₁) : ReflTransGen (Rounds.Step all allowed) (p, e) (.ret code, e₁) := by
  have steps : ReflTransGen (Rounds.Step all allowed) (p.bind .ret, e) (.ret code, e₁) :=
    undisturbed replies ran .ret
  rwa [bind_ret] at steps

end

/-- One server online, and nothing on the way. -/
def serverA : Server := createDnsServer [1] 1 1050 1053

def oneOnline : Health where
  mem := { startMem .overload with router := ⟨.overload, [serverA], 1, 0⟩ }
  locks _ := false
  pings := []
  pongs := []
  socket := []
  round := 0
  begun := [serverA]
  joined := []
  answers := []

def pingA (round : Nat) : Ping := ⟨round, 1053, [128, 0, 1, 0, 0, 1, 0, 0, 0, 0, 0, 0, 0, 0, 1, 0, 1]⟩

def pongA (round : Nat) : Pong := ⟨round, serverA, [1]⟩

theorem onlyA_population : Population (· = serverA) := by
  constructor
  · rintro _ rfl
    decide
  · rintro _ _ rfl rfl _
    rfl

theorem oneOnline_start : Rounds.Start (· = serverA) (queryResponseTime, oneOnline) :=
  ⟨rfl, rfl, fun _ => List.mem_singleton.mp, rfl, rfl, rfl, rfl, rfl, rfl⟩

/-- The server answers a ping of the round. -/
theorem pingA_answered (pinged : pingA n ∈ e.pings) :
    Drift (· = serverA) e (e.answered (pingA n) serverA [⟨2055, [1]⟩]) :=
  @Drift.answer _ (pingA n) serverA (emptyComs 0) (List.replicate 64 0) rootQuestion [] _ _ _ pinged rfl rfl rfl rfl

/-- Nothing is answered while a pong of another round waits. -/
def currentReply : Handler platform.interface Health := fun e request =>
  if e.socket.all (·.round = e.round) then e.reply silentWorld request else none

theorem currentReply_timely {op : platform.Call} {r : op.Reply} (done : currentReply e op = some (r, e₁)) :
    e.Replies Health.Timely op r e₁ := by
  simp only [currentReply, Option.ite_none_right_eq_some, List.all_eq_true, decide_eq_true_eq] at done
  exact ⟨fun _ pong first => done.1 pong (List.mem_of_mem_head? first), silentWorld, done.2⟩

theorem rounds_judge_prompt : ∃ Y : Rounds,
    Y.1 = .ret 0 ∧ Y.2.begun = [serverA] ∧ Y.2.rotation = [serverA] ∧ Y.2.Judged := by
  let done : Health := { oneOnline with answers := [pongA 0] }
  have run : ReflTransGen (Rounds.Step (· = serverA) Health.Timely)
      (queryResponseTime, oneOnline) (.ret 0, done) := by
    refine .head (.within (.call ⟨by rintro ⟨⟩, silentWorld, rfl⟩)) ?_
    refine .trans (undisturbed (fun _ _ _ _ => currentReply_timely) (runs_of_run (n := 20)
      (show _ = some ((), { oneOnline with pings := [pingA 0] }) from rfl)) _) ?_
    refine .head (.within (.drift (pingA_answered (.head _)))) ?_
    refine .head (.within (.drift (@Drift.deliver _ (pongA 0) _ (.head _)))) ?_
    exact undisturbed_end (fun _ _ _ _ => currentReply_timely) (runs_of_run (n := 60) rfl)
  exact ⟨(.ret 0, done), rfl, rfl, rfl, rounds_judge onlyA_population oneOnline_start run rfl⟩

/-- What a round leaves when nothing happens beside it. -/
def roundAlone (e : Health) : Health := ((run (Health.reply silentWorld) 60 queryResponseTime e).map (·.2)).getD e

theorem roundAlone_runs (ran : run (Health.reply silentWorld) 60 queryResponseTime e = some (code, e₁)) :
    ReflTransGen (Rounds.Step all fun _ _ => True) (queryResponseTime, e) (.ret code, e₁) :=
  undisturbed_end (fun _ _ _ _ done => ⟨trivial, silentWorld, done⟩) (runs_of_run ran)

/-- The server has been removed, as it was silent; it is added again, and then its pong arrives. -/
def lateHealth : Health :=
  let e := roundAlone oneOnline
  { e with
    mem := { e.mem with router := ⟨.overload, [serverA], 1, 0⟩ }
    pings := []
    socket := [pongA 0]
    joined := [serverA]
    answers := [pongA 0] }

/-- In the next round the server is silent again, and the pong of the round before spares it. -/
theorem late_pong_spares : ∃ all X Y, Population all ∧ Rounds.Start all X ∧
    ReflTransGen (Rounds.Step all fun _ _ => True) X Y ∧ Y.1 = .ret 0 ∧ ¬ Y.2.Judged := by
  have first : ReflTransGen (Rounds.Step (· = serverA) fun _ _ => True) (queryResponseTime, oneOnline)
      (.ret 0, roundAlone oneOnline) := roundAlone_runs rfl
  have between : ReflTransGen (Rounds.Step (· = serverA) fun _ _ => True) (.ret 0, roundAlone oneOnline)
      (.ret 0, lateHealth) := by
    refine .head (.within (.drift (.join rfl rfl rfl))) ?_
    refine .head (.within (.drift (pingA_answered (.head _)))) ?_
    exact .single (.within (.drift (@Drift.deliver _ (pongA 0) _ (.head _))))
  have second : ReflTransGen (Rounds.Step (· = serverA) fun _ _ => True) (.ret 0, lateHealth)
      (.ret 0, roundAlone lateHealth.begin) := .head .next (roundAlone_runs rfl)
  refine ⟨_, _, _, onlyA_population, oneOnline_start, (first.trans between).trans second, rfl, ?_⟩
  intro judged
  obtain ⟨pong, sent, current, _⟩ := judged serverA (.head _) (.head _) List.not_mem_nil
  change pong ∈ [pongA 0] at sent
  rw [List.mem_singleton] at sent
  subst sent
  cases current

end DnsServer
