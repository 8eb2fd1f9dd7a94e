import DnsServer.Router.Census

/-! The array of the servers that are offline, among servers that are added while a round makes it. -/
namespace DnsServer
open Process Program Relation Memory

/-- A server is added, while nobody holds the mutex. -/
inductive Census.Adds : Census → Census → Prop where
  | add {dns : Server} {router : Router} : e.locks .mutex = false → e.mem.router.addServer dns = some router →
      Census.Adds e { e with mem := { e.mem with router }, servers := e.servers ++ [dns] }

/-! The parts of the round: what comes before the array, its filling and what is done with it then. -/

/-- The count at the beginning, and the pings. -/
def beginRound : Proc UInt8 := do
  let startingCnt := (← (act .router : Proc Router)).serverCnt
  sendPings
  return startingCnt

/-- One turn of the loop that fills the array. -/
def listServer (state : Bytes × Nat) : Proc (Bytes × Nat ⊕ Bytes) := do
  let (offline, i) := state
  let router : Router ← act .router
  if router.serverCnt.toNat ≤ i then return .inr offline
  match router.servers[i]? with
  | none => fault
  | some server =>
    match write offline i [server.id.toUInt8] with
    | none => fault
    | some offline => return .inl (offline, i + 1)

/-- From the allocation of `n` elements to the last comparison of the loop that fills them. -/
def fillOffline (n : Nat) : Proc (Bytes × UInt8) := do
  let offline ← act (.garbage n)
  let cnt := (← (act .router : Proc Router)).serverCnt
  let offline ← listServers offline.val
  return (offline, cnt)

/-- From the first pong on. -/
def finishRound (startingCnt : UInt8) (filled : Bytes × UInt8) : Proc UInt8 := do
  let (offline, cnt) ← crossOff filled.1 filled.2
  let router : Router ← act .router
  if startingCnt ≠ router.serverCnt then return 1
  if offline.length < cnt.toNat then fault
  removeServers (offline.take cnt.toNat)
  return 0

/-- From the size of the array on. -/
def makeOffline (startingCnt : UInt8) : Proc UInt8 := do
  let router : Router ← act .router
  (fillOffline router.serverCnt.toNat).bind (finishRound startingCnt)

theorem queryResponseTime_eq : queryResponseTime = beginRound.bind makeOffline := rfl

/-- The round is between reading the size of the array, `n`, and the end of the loop that fills it. -/
def Filling (n : Nat) (p : Proc UInt8) : Prop :=
  ∃ q startingCnt, Leads (fillOffline n) q ∧ (∀ filled, q ≠ .ret filled) ∧ p = q.bind (finishRound startingCnt)

/-- A step of the round, or a server that is added. -/
abbrev Interleaved : Proc UInt8 × Census → Proc UInt8 × Census → Prop := Shared Census.Replies Census.Adds

/-- A step of the round, or a server that is added while the array is not being filled. -/
inductive Undisturbed : Proc UInt8 × Census → Proc UInt8 × Census → Prop where
  | own : Alone Census.Replies X Y → Undisturbed X Y
  | add : (∀ n, ¬ Filling n X.1) → Census.Adds X.2 e → Undisturbed X (X.1, e)

/-- No element outside the array is written or read unless a server is added while it is being filled; and it
comes to that exactly from where the array is being filled for more servers than it has elements. -/
structure OfflineInBounds (e : Census) : Prop where
  undisturbed : ∀ Y, ReflTransGen Undisturbed (queryResponseTime, e) Y → Y.1 ≠ fault
  overruns_iff : ∀ Y, ReflTransGen Interleaved (queryResponseTime, e) Y →
    ((∃ e₁, ReflTransGen (Alone Census.Replies) Y (fault, e₁)) ↔
      ∃ n, Filling n Y.1 ∧ n < Y.2.mem.router.serverCnt.toNat)

namespace Census

/-! What the parts ask for, whoever is added between. -/

/-- Nothing has been removed. -/
structure Grows (r r₁ : Router) : Prop where
  covered : r₁.Covered
  count : r.serverCnt.toNat ≤ r₁.serverCnt.toNat

theorem adds_grows {e e₁ : Census} (covered : e.mem.router.Covered) (adds : Adds e e₁) :
    Grows e.mem.router e₁.mem.router := by
  cases adds with
  | add _ added =>
    obtain ⟨sized, grown, _⟩ := addServer_spec covered _ added
    have more := congrArg List.length grown
    rw [List.length_append, sized.covered.length_rotation, covered.length_rotation] at more
    exact ⟨sized.covered, more ▸ Nat.le_add_right _ _⟩

theorem drifts_grow {e e₁ : Census} (drifts : ReflTransGen Adds e e₁) (covered : e.mem.router.Covered) :
    Grows e.mem.router e₁.mem.router := by
  induction drifts with
  | refl => exact ⟨covered, le_rfl⟩
  | tail _ adds ih =>
    have last := adds_grows ih.covered adds
    exact ⟨last.covered, ih.count.trans last.count⟩

/-- Undefined behaviour is not asked for, unless `n` elements are being filled for more servers. -/
def Allows : Option Nat → Census → platform.Call → Prop
  | none, _, op => op ≠ .act .fault
  | some n, e, op => Looks op ∨ op = .act .fault ∧ n < e.mem.router.serverCnt.toNat

theorem allows_looks {op : platform.Call} (room : Option Nat) (e : Census) (looks : Looks op) :
    Allows room e op := by
  cases room with
  | none =>
    rintro rfl
    exact looks
  | some n => exact .inl looks

/-- The post-condition and the requests of a part of the round, whoever is added. -/
abbrev Heeds (room : Option Nat) (p : Proc α) (post : α → Census → Prop) (e : Census) : Prop :=
  Program.Obeys (heeding Replies Adds (Allows room)) p post e

theorem heeds_looks {e : Census} {op : platform.Call} {k : op.Reply → Proc α} {post : α → Census → Prop}
    (looks : Looks op) (covered : e.mem.router.Covered)
    (next : ∀ r e₁, Grows e.mem.router e₁.mem.router → Heeds room (k r) post e₁) :
    Heeds room (@Program.call platform.interface _ op k) post e := by
  refine obeys_heeding (allows_looks room e looks) fun r e₁ e₂ answered drifts => ?_
  obtain ⟨same, _⟩ := looks_same looks answered
  have grows := drifts_grow drifts (same ▸ covered)
  exact next r e₂ (same ▸ grows)

theorem heeds_router {e : Census} {k : Router → Proc α} {post : α → Census → Prop} (covered : e.mem.router.Covered)
    (next : ∀ e₁, Grows e.mem.router e₁.mem.router → Heeds room (k e.mem.router) post e₁) :
    Heeds room (@Program.call platform.interface _ (.act .router) k) post e := by
  refine obeys_heeding (allows_looks room e trivial) ?_
  rintro r e₁ e₂ ⟨world, answered⟩ drifts
  cases answered
  have grows := drifts_grow drifts covered
  exact next e₂ grows

theorem sendPings_heeds {e : Census} (covered : e.mem.router.Covered) :
    Heeds none sendPings (fun _ e₁ => e₁.mem.router.Covered) e := by
  refine obeys_heeding_loop (fun _ e₁ => e₁.mem.router.Covered) covered fun i e covered => ?_
  simp only [act, request, bind_eq, pure_eq, call_bind, ret_bind]
  refine heeds_router covered fun e₁ grows₁ => ?_
  split
  · exact grows₁.covered
  next more =>
  refine heeds_looks trivial grows₁.covered fun buffer e₂ grows₂ => ?_
  have fits : (craftMessage buffer.val true pingId [0] none).isSome :=
    (craftMessage_fits_iff buffer.property).mpr (by decide)
  obtain ⟨⟨messageBytes, written⟩, crafted⟩ := Option.isSome_iff_exists.mp fits
  have within : i < e.mem.router.servers.length := (Nat.not_le.mp more).trans_le covered
  simp only [crafted, List.getElem?_eq_getElem within]
  refine obeys_heeding (by rintro ⟨⟩) ?_
  rintro error e₃ e₄ ⟨world, answered⟩ drifts
  simp only [reply, Option.map_eq_some_iff] at answered
  obtain ⟨_, _, done⟩ := answered
  cases done
  exact (drifts_grow drifts grows₂.covered).covered

theorem beginRound_heeds {e : Census} (covered : e.mem.router.Covered) :
    Heeds none beginRound (fun _ e₁ => e₁.mem.router.Covered) e := by
  simp only [beginRound, act, request, bind_eq, pure_eq, call_bind, ret_bind]
  refine heeds_router covered fun e₁ grows => ?_
  exact .bind ((sendPings_heeds grows.covered).mono fun _ _ covered => covered)

theorem heeds_fault {e : Census} {post : α → Census → Prop} (more : n < e.mem.router.serverCnt.toNat) :
    Heeds (some n) (fault : Proc α) post e :=
  obeys_heeding (.inr ⟨rfl, more⟩) fun r => r.elim

/-- The loop writes outside the array only when there are more servers than elements. It leaves the loop with
as many as were counted at most. -/
theorem fillOffline_heeds {e : Census} (n : Nat) (covered : e.mem.router.Covered) :
    Heeds (some n) (fillOffline n) (fun filled _ => filled.2.toNat ≤ filled.1.length) e := by
  simp only [fillOffline, act, request, bind_eq, pure_eq, call_bind, ret_bind]
  refine heeds_looks trivial covered fun offline e₁ grows₁ => ?_
  refine heeds_router grows₁.covered fun e₂ grows₂ => ?_
  refine .bind (obeys_heeding_loop (fun (listed : Bytes × Nat) e => e.mem.router.Covered ∧
    listed.1.length = n ∧ listed.2 ≤ n ∧ e₁.mem.router.serverCnt.toNat ≤ e.mem.router.serverCnt.toNat)
    ⟨grows₂.covered, offline.property, Nat.zero_le n, grows₂.count⟩ ?_)
  rintro ⟨offline, i⟩ e ⟨covered, (size : offline.length = n), (bound : i ≤ n), counted⟩
  simp only [act, request, bind_eq, pure_eq, call_bind, ret_bind]
  refine heeds_router covered fun e₃ grows₃ => ?_
  have more := grows₃.count
  split
  · next all =>
    change e₁.mem.router.serverCnt.toNat ≤ offline.length
    omega
  next further =>
  have within : i < e.mem.router.servers.length := (Nat.not_le.mp further).trans_le covered
  simp only [List.getElem?_eq_getElem within]
  split
  · next outside =>
    have room := (write_isSome_iff offline i [e.mem.router.servers[i].id.toUInt8]).not.mp (by rw [outside]; decide)
    rw [List.length_singleton] at room
    exact heeds_fault (by omega)
  · next written =>
    have same := length_write written
    have room := (write_isSome_iff offline i [e.mem.router.servers[i].id.toUInt8]).mp (by rw [written]; rfl)
    rw [List.length_singleton] at room
    exact ⟨grows₃.covered, same.trans size, size ▸ room, counted.trans more⟩

/-- Crossing off looks at no element from the count on, and the count is within the array all along. -/
theorem crossOff_heeds {e : Census} (fits : cnt.toNat ≤ offline.length) :
    Heeds none (crossOff offline cnt) (fun left _ => left.2.toNat ≤ left.1.length) e := by
  simp only [crossOff, act, request, bind_eq, pure_eq, call_bind, ret_bind]
  refine obeys_heeding (allows_looks none e trivial) fun buffer _ e₁ _ _ => ?_
  refine obeys_heeding_loop (fun (left : Bytes × UInt8 × UInt8) _ => left.2.1.toNat ≤ left.1.length) fits ?_
  rintro ⟨offline, cnt, last⟩ e fits
  refine obeys_heeding (allows_looks none e trivial) fun got _ e₁ _ _ => ?_
  cases got with
  | none => exact fits
  | some bytes =>
    obtain ⟨rest, left, crossed, fits, _⟩ := crossOut_eq fits (bytes.headD last)
    simp only [crossed]
    exact fits

theorem removeServers_asks (offline : List UInt8) :
    (removeServers offline).Asks fun op => ∀ e, Allows none e op := by
  induction offline with
  | nil => trivial
  | cons dnsId offline ih =>
    have removal : (removeServer dnsId).Asks fun op : platform.Call => op ≠ .act .fault := by
      simp only [removeServer, lock, unlock, act, request, bind_eq, pure_eq, call_bind, ret_bind]
      refine .call (by rintro ⟨⟩) fun _ => .call (by rintro ⟨⟩) fun _ => .call (by rintro ⟨⟩) fun deleted => ?_
      split
      · trivial
      exact .call (by rintro ⟨⟩) fun _ => .call (by rintro ⟨⟩) fun _ => .call (by rintro ⟨⟩) fun _ => trivial
    exact .bind (removal.mono fun _ other _ => other) fun _ => ih

theorem finishRound_heeds {e : Census} (startingCnt : UInt8) (fits : filled.2.toNat ≤ filled.1.length) :
    Heeds none (finishRound startingCnt filled) (fun _ _ => True) e := by
  simp only [finishRound, act, request, bind_eq, pure_eq, call_bind, ret_bind, fault_bind]
  refine .bind ((crossOff_heeds fits).mono ?_)
  rintro ⟨offline, cnt⟩ e₁ fits
  refine obeys_heeding (allows_looks none e₁ trivial) fun router _ e₂ _ _ => ?_
  split
  · trivial
  rw [if_neg (Nat.not_lt.mpr fits)]
  exact .bind ((obeys_heeding_of_asks (removeServers_asks _)).mono fun _ _ _ => trivial)

/-! A round comes from one part to the next. -/

/-- Where a round can be, with the size of the array while it is being filled. -/
inductive Phase : Option Nat → Proc UInt8 → Census → Prop where
  | begins : Lasts Adds (heeding Replies Adds (Allows none)) p (fun _ e₁ => e₁.mem.router.Covered) e →
      Phase none (p.bind makeOffline) e
  | fills : Leads (fillOffline n) p → (∀ filled, p ≠ .ret filled) →
      Lasts Adds (heeding Replies Adds (Allows (some n))) p (fun filled _ => filled.2.toNat ≤ filled.1.length) e →
      Phase (some n) (p.bind (finishRound startingCnt)) e
  | finishes : Lasts Adds (heeding Replies Adds (Allows none)) p (fun _ _ => True) e → Phase none p e

/-- The array is not being filled for more servers than it has elements. -/
def Roomy (room : Option Nat) (e : Census) : Prop := ∀ n, room = some n → e.mem.router.serverCnt.toNat ≤ n

theorem roomy_none {e : Census} : Roomy none e := by
  rintro _ ⟨⟩

theorem phase_start {e : Census} (covered : e.mem.router.Covered) : Phase none queryResponseTime e := by
  rw [queryResponseTime_eq]
  exact .begins fun _ drifts => beginRound_heeds (drifts_grow drifts covered).covered

theorem Phase.adds {e e₁ : Census} (phase : Phase room p e) (adds : Adds e e₁) : Phase room p e₁ := by
  cases phase with
  | begins lasts => exact .begins (lasts.step heeding_among (.drift adds))
  | fills leads more lasts => exact .fills leads more (lasts.step heeding_among (.drift adds))
  | finishes lasts => exact .finishes (lasts.step heeding_among (.drift adds))

/-- While the array is being filled, the round itself changes nothing. -/
theorem fills_mem {e e₁ : Census} {p p₁ : Proc α} {post : α → Census → Prop}
    (lasts : Lasts Adds (heeding Replies Adds (Allows (some n))) p post e)
    (moved : Alone Replies (p, e) (p₁, e₁)) : e₁.mem = e.mem := by
  cases moved with
  | @call _ _ op k r answered =>
    obtain ⟨_, allowed, _⟩ := lasts e .refl
    rcases allowed with looks | ⟨rfl, _⟩
    · exact (looks_same looks answered).1
    · cases r
  | turn => rfl
  | drift changed => exact changed.elim

theorem Phase.step {e e₁ : Census} (phase : Phase room p e) (moved : Alone Replies (p, e) (p₁, e₁)) :
    ∃ room₁, Phase room₁ p₁ e₁ ∧ (Roomy room e → Roomy room₁ e₁) := by
  cases phase with
  | begins lasts =>
    rcases moved.split with ⟨startingCnt, rfl⟩ | ⟨q, e₂, moved, same⟩
    · have covered : e.mem.router.Covered := lasts e .refl
      cases moved with
      | call answered =>
        obtain ⟨world, answered⟩ := answered
        cases answered
        refine ⟨some e.mem.router.serverCnt.toNat, .fills .here (by rintro _ ⟨⟩) ?_, ?_⟩
        · exact fun e₂ drifts => fillOffline_heeds _ (drifts_grow drifts covered).covered
        · rintro _ _ ⟨⟩
          exact le_rfl
      | drift changed => exact changed.elim
    · cases same
      exact ⟨none, .begins (lasts.step heeding_among moved.weaken), fun _ => roomy_none⟩
  | @fills n q e startingCnt leads more lasts =>
    rcases moved.split with ⟨filled, rfl⟩ | ⟨q, e₂, moved, same⟩
    · exact absurd rfl (more filled)
    cases same
    have lasts₁ := lasts.step heeding_among moved.weaken
    by_cases filled : ∃ filled, q = .ret filled
    · obtain ⟨filled, rfl⟩ := filled
      have fits : filled.2.toNat ≤ filled.1.length := lasts₁ e₁ .refl
      exact ⟨none, .finishes fun _ _ => finishRound_heeds startingCnt fits, fun _ => roomy_none⟩
    · have same := fills_mem lasts moved
      refine ⟨some n, .fills (leads.step moved) (not_exists.mp filled) lasts₁, fun roomy m size => ?_⟩
      rw [same]
      exact roomy m size
  | finishes lasts =>
    exact ⟨none, .finishes (lasts.step heeding_among moved.weaken), fun _ => roomy_none⟩

/-- Undefined behaviour is asked for by the part that the round is in. -/
theorem allows_of_fault {e : Census} {p : Proc α} {f : α → Proc β} {post : α → Census → Prop}
    (lasts : Lasts Adds (heeding Replies Adds (Allows room)) p post e) (fails : p.bind f = fault) :
    (∃ a, p = .ret a) ∨ Allows room e (.act .fault) := by
  cases p with
  | ret a => exact .inl ⟨a, rfl⟩
  | call op k =>
    obtain ⟨_, allowed, _⟩ := lasts e .refl
    exact .inr ((Program.call.inj fails).1 ▸ allowed)
  | loop b body k => cases fails

theorem Phase.ne_fault {e : Census} (phase : Phase room p e) (roomy : Roomy room e) : p ≠ fault := by
  intro fails
  cases phase with
  | begins lasts =>
    rcases allows_of_fault lasts fails with ⟨_, rfl⟩ | allowed
    · cases fails
    · exact allowed rfl
  | fills leads more lasts =>
    rcases allows_of_fault lasts fails with ⟨filled, rfl⟩ | allowed
    · exact more filled rfl
    · rcases allowed with looks | ⟨_, overrun⟩
      · exact looks
      · exact Nat.not_lt.mpr (roomy _ rfl) overrun
  | finishes lasts =>
    obtain ⟨_, allowed, _⟩ := fails ▸ lasts e .refl
    exact allowed rfl

theorem Phase.filling {e : Census} (phase : Phase (some n) p e) : Filling n p := by
  cases phase with
  | fills leads more => exact ⟨_, _, leads, more, rfl⟩

theorem undisturbed_phase (phase : Phase room X.1 X.2) (roomy : Roomy room X.2)
    (run : ReflTransGen Undisturbed X Y) : ∃ room₁, Phase room₁ Y.1 Y.2 ∧ Roomy room₁ Y.2 := by
  induction run with
  | refl => exact ⟨room, phase, roomy⟩
  | tail _ moved ih =>
    obtain ⟨room₁, phase₁, roomy₁⟩ := ih
    cases moved with
    | own moved =>
      obtain ⟨room₂, phase₂, still⟩ := phase₁.step moved
      exact ⟨room₂, phase₂, still roomy₁⟩
    | add quiet adds =>
      refine ⟨room₁, phase₁.adds adds, ?_⟩
      rintro n rfl
      exact absurd phase₁.filling (quiet n)

theorem shared_phase (covered : e.mem.router.Covered)
    (run : ReflTransGen Interleaved (queryResponseTime, e) Y) : ∃ room, Phase room Y.1 Y.2 := by
  induction run with
  | refl => exact ⟨none, phase_start covered⟩
  | tail _ moved ih =>
    obtain ⟨room, phase⟩ := ih
    rcases moved.own_or_drift with moved | ⟨adds, same⟩
    · obtain ⟨room₁, phase₁, _⟩ := phase.step moved
      exact ⟨room₁, phase₁⟩
    · exact ⟨room, same ▸ phase.adds adds⟩

/-! The way to the element outside. -/

/-- One turn with more servers than elements: it writes an element of the array, or outside. -/
theorem listing_turn {e : Census} {offline : Bytes} {i : Nat} (k : Bytes → Proc α) (size : offline.length = n)
    (bound : i ≤ n) (more : n < e.mem.router.serverCnt.toNat) :
    (∃ e₁, ReflTransGen (Alone Replies) (unroll (offline, i) listServer k, e) (fault, e₁)) ∨
      i < n ∧ ∃ offline₁ e₁, offline₁.length = n ∧ e₁.mem = e.mem ∧ ReflTransGen (Alone Replies)
        (unroll (offline, i) listServer k, e) (unroll (offline₁, i + 1) listServer k, e₁) := by
  let looked : Census := { e with counted := some (e.counted.getD e.servers.length) }
  have answered : e.Replies (.act .router) e.mem.router looked := ⟨silentWorld, rfl⟩
  have further : ¬ e.mem.router.serverCnt.toNat ≤ i := by omega
  simp only [unroll, listServer, act, request, bind_eq, pure_eq, call_bind, ret_bind]
  cases stored : e.mem.router.servers[i]? with
  | none =>
    refine .inl ⟨looked, .head (.call answered) ?_⟩
    rw [if_neg further, stored]
    simp only [fault_bind]
    exact .refl
  | some server =>
    cases written : write offline i [server.id.toUInt8] with
    | none =>
      refine .inl ⟨looked, .head (.call answered) ?_⟩
      rw [if_neg further, stored]
      simp only [written, fault_bind]
      exact .refl
    | some offline₁ =>
      have room := (write_isSome_iff offline i [server.id.toUInt8]).mp (by rw [written]; rfl)
      rw [size, List.length_singleton] at room
      refine .inr ⟨room, offline₁, looked, (length_write written).trans size, rfl, .head (.call answered) ?_⟩
      rw [if_neg further, stored]
      simp only [written]
      exact .single .turn

theorem listing_overruns {e : Census} {offline : Bytes} {i : Nat} (k : Bytes → Proc α) (size : offline.length = n)
    (bound : i ≤ n) (more : n < e.mem.router.serverCnt.toNat) :
    ∃ e₁, ReflTransGen (Alone Replies) (unroll (offline, i) listServer k, e) (fault, e₁) := by
  obtain ⟨left, rfl⟩ := Nat.exists_eq_add_of_le bound
  induction left generalizing offline i e with
  | zero =>
    rcases listing_turn k size bound more with overrun | ⟨further, _⟩
    · exact overrun
    · exact absurd further (Nat.lt_irrefl i)
  | succ left ih =>
    rcases listing_turn k size bound more with overrun | ⟨_, offline₁, e₁, size₁, same, turned⟩
    · exact overrun
    · rw [Nat.add_comm left 1, ← Nat.add_assoc] at size₁ more
      obtain ⟨e₂, overrun⟩ := ih size₁ (Nat.le_add_right _ _) (by rwa [same])
      exact ⟨e₂, turned.trans overrun⟩

/-- The places between the allocation of `n` elements and the end of the loop that fills them. -/
inductive FillPlace (n : Nat) : Proc (Bytes × UInt8) → Prop where
  | allocates : FillPlace n (fillOffline n)
  | counts {offline : Bytes} : offline.length = n →
      FillPlace n (@Program.call platform.interface _ (.act .router) fun router =>
        (listServers offline).bind fun offline => .ret (offline, router.serverCnt))
  | compares : offline.length = n → i ≤ n →
      FillPlace n (.loop (offline, i) listServer fun offline => .ret (offline, cnt))
  | lists : offline.length = n → i ≤ n →
      FillPlace n (unroll (offline, i) listServer fun offline => .ret (offline, cnt))
  | overruns : FillPlace n fault
  | filled : FillPlace n (.ret filled)

theorem fillPlace_of_leads (leads : Leads (fillOffline n) p) : FillPlace n p := by
  induction leads with
  | here => exact .allocates
  | @call op k r _ ih =>
    generalize whole : @Program.call platform.interface _ op k = q at ih
    cases ih with
    | allocates =>
      cases whole
      exact .counts r.property
    | counts size =>
      cases whole
      exact .compares size (Nat.zero_le n)
    | compares => cases whole
    | lists size bound =>
      cases whole
      simp only [pure_eq, ret_bind]
      split
      · exact .filled
      split
      · rw [fault_bind]
        exact .overruns
      split
      · rw [fault_bind]
        exact .overruns
      · next written =>
        have room := (write_isSome_iff _ _ _).mp (Option.isSome_of_eq_some written)
        exact .compares ((length_write written).trans size) (size ▸ room)
    | overruns =>
      cases whole
      cases r
    | filled => cases whole
  | turn _ ih =>
    generalize whole : Program.loop _ _ _ = q at ih
    cases ih with
    | compares size bound =>
      cases whole
      exact .lists size bound
    | filled => cases whole
    | allocates => cases whole
    | counts => cases whole
    | lists => cases whole
    | overruns => cases whole

theorem loop_overruns {e : Census} {offline : Bytes} {i : Nat} (k : Bytes → Proc α) (size : offline.length = n)
    (bound : i ≤ n) (more : n < e.mem.router.serverCnt.toNat) :
    ∃ e₁, ReflTransGen (Alone Replies) (.loop (offline, i) listServer k, e) (fault, e₁) := by
  obtain ⟨e₁, overrun⟩ := listing_overruns k size bound more
  exact ⟨e₁, .head .turn overrun⟩

theorem counts_overruns {e : Census} {offline : Bytes} (k : Bytes → UInt8 → Proc α) (size : offline.length = n)
    (more : n < e.mem.router.serverCnt.toNat) :
    ∃ e₁, ReflTransGen (Alone Replies) (@Program.call platform.interface _ (.act .router) fun router =>
      .loop (offline, 0) listServer fun offline => k offline router.serverCnt, e) (fault, e₁) := by
  let looked : Census := { e with counted := some (e.counted.getD e.servers.length) }
  have answered : e.Replies (.act .router) e.mem.router looked := ⟨silentWorld, rfl⟩
  obtain ⟨e₁, overrun⟩ := loop_overruns (e := looked) (fun offline => k offline e.mem.router.serverCnt) size
    (Nat.zero_le n) more
  exact ⟨e₁, .head (.call answered) overrun⟩

/-- From anywhere in the filling the array is overrun when there are more servers than elements. -/
theorem filling_overruns {e : Census} (filling : Filling n p) (more : n < e.mem.router.serverCnt.toNat) :
    ∃ e₁, ReflTransGen (Alone Replies) (p, e) (fault, e₁) := by
  obtain ⟨q, startingCnt, leads, unfilled, rfl⟩ := filling
  have place := fillPlace_of_leads leads
  cases place with
  | allocates =>
    have given : e.Replies (.act (.garbage n)) (zeros n) e := ⟨silentWorld, rfl⟩
    obtain ⟨e₁, overrun⟩ := counts_overruns (fun offline cnt => finishRound startingCnt (offline, cnt))
      (zeros n).property more
    exact ⟨e₁, .head (.call given) overrun⟩
  | counts size => exact counts_overruns (fun offline cnt => finishRound startingCnt (offline, cnt)) size more
  | compares size bound => exact loop_overruns _ size bound more
  | lists size bound =>
    rw [unroll_bind]
    exact listing_overruns _ size bound more
  | overruns => exact ⟨e, by rw [fault_bind]⟩
  | filled => exact absurd rfl (unfilled _)

end Census

theorem offline_in_bounds {e : Census} (covered : e.mem.router.Covered) : OfflineInBounds e where
  undisturbed Y run := by
    have start : Census.Phase none (queryResponseTime, e).1 (queryResponseTime, e).2 := Census.phase_start covered
    obtain ⟨room, phase, roomy⟩ := Census.undisturbed_phase start Census.roomy_none run
    exact phase.ne_fault roomy
  overruns_iff Y run := by
    obtain ⟨room, phase⟩ := Census.shared_phase covered run
    constructor
    · rintro ⟨e₁, failing⟩
      by_cases roomy : Census.Roomy room Y.2
      · obtain ⟨_, phase₁, roomy₁⟩ := Census.undisturbed_phase phase roomy (failing.lift id fun _ _ => .own)
        exact absurd rfl (phase₁.ne_fault roomy₁)
      · obtain ⟨n, roomy⟩ := not_forall.mp roomy
        obtain ⟨rfl, more⟩ := Classical.not_imp.mp roomy
        exact ⟨n, phase.filling, Nat.not_le.mp more⟩
    · rintro ⟨n, filling, more⟩
      exact Census.filling_overruns filling more

theorem offline_in_bounds_one : OfflineInBounds oneCounted := offline_in_bounds (show 1 ≤ 1 from le_rfl)

/-- The round comes to the size of the array while there is one server. -/
theorem beginRound_one : ∃ e, Runs (fun e => Census.reply silentWorld e) beginRound oneCounted 1 e ∧
    e.mem.router = oneCounted.mem.router ∧ e.locks .mutex = false :=
  ⟨_, runs_of_run (n := 20) rfl, rfl, rfl⟩

/-- With one server the array has one element. A server that is added then is written behind it. -/
theorem offline_overrun :
    ∃ Y, ReflTransGen Interleaved (queryResponseTime, oneCounted) Y ∧ Filling 1 Y.1 ∧
      Y.2.mem.router.serverCnt = 2 ∧ ∃ e₁, ReflTransGen Interleaved Y (fault, e₁) := by
  obtain ⟨e₁, ran, one, free⟩ := beginRound_one
  let looked : Census := { e₁ with counted := some (e₁.counted.getD e₁.servers.length) }
  let second : Router := ⟨.roundRobin, [createDnsServer [] 0 0 0, createDnsServer [] 1 0 1], 2, 0⟩
  let grown : Census :=
    { looked with
      mem := { looked.mem with router := second }
      servers := looked.servers ++ [createDnsServer [] 1 0 1] }
  have begun : ReflTransGen Interleaved (queryResponseTime, oneCounted) (makeOffline 1, e₁) :=
    ran.shared (fun _ _ _ _ done => ⟨silentWorld, done⟩) makeOffline
  have sized : Interleaved (makeOffline 1, e₁) ((fillOffline 1).bind (finishRound 1), looked) := by
    have answered : e₁.Replies (.act .router) oneCounted.mem.router looked := ⟨silentWorld, by rw [← one]; rfl⟩
    exact @Shared.call platform.interface _ _ Census.Replies Census.Adds e₁ looked (.act .router) _ _ answered
  have adds : Census.Adds looked grown := by
    have added : e₁.mem.router.addServer (createDnsServer [] 1 0 1) = some second := by
      rw [one]
      rfl
    exact .add free added
  have filling : Filling 1 ((fillOffline 1).bind (finishRound 1)) := ⟨fillOffline 1, 1, .here, by rintro _ ⟨⟩, rfl⟩
  have more : 1 < grown.mem.router.serverCnt.toNat := Nat.lt_succ_self 1
  obtain ⟨e₂, overrun⟩ := Census.filling_overruns filling more
  exact ⟨_, (begun.tail sized).tail (.drift adds), filling, rfl, e₂, overrun.lift id fun _ _ => Shared.weaken⟩

end DnsServer
