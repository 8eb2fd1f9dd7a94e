import DnsServer.Cluster.Outcomes

/-! Which servers an update brings to its id, and when their tables come to agree. -/
namespace DnsServer
open Process Program

/-- The tables agree at every domain but one. -/
def AgreeBeside (d : Bytes) (t t₁ : Table) : Prop := ∀ e, e ≠ d → t.lookup e = t₁.lookup e

theorem apply_eq_apply_iff (u : Update) (t t₁ : Table) :
    u.apply t = u.apply t₁ ↔ AgreeBeside u.domain t t₁ := by
  constructor
  · intro same d other
    have found := congrArg (Finmap.lookup d) same
    rw [lookup_apply, lookup_apply, if_neg other, if_neg other] at found
    exact found
  · intro agree
    apply Finmap.ext_lookup
    intro d
    rw [lookup_apply, lookup_apply]
    split
    · rfl
    · next other => exact agree d other

theorem apply_eq_iff (u : Update) (t t₁ : Table) :
    u.apply t = t₁ ↔ AgreeBeside u.domain t t₁ ∧ t₁.lookup u.domain = u.entry := by
  constructor
  · rintro rfl
    constructor
    · intro d other
      rw [lookup_apply, if_neg other]
    · rw [lookup_apply, if_pos rfl]
  · rintro ⟨agree, entry⟩
    apply Finmap.ext_lookup
    intro d
    rw [lookup_apply]
    split
    · next same => rw [same, entry]
    · next other => exact agree d other

/-! The outcome of a call when no server is listed twice. -/

/-- The contacts up to the first that fails. -/
def contactsMade (id : UInt8) (m : Mem) : List (UInt16 × Fate) → List (UInt16 × Fate)
  | [] => []
  | c :: rest =>
    c :: if c.2.outcome id (m.coms c.1).versionNum = none then [] else contactsMade id m rest

theorem contactsMade_congr (id : UInt8) {m m₁ : Mem} {listed : List (UInt16 × Fate)}
    (same : ∀ c ∈ listed, (m₁.coms c.1).versionNum = (m.coms c.1).versionNum) :
    contactsMade id m₁ listed = contactsMade id m listed := by
  induction listed with
  | nil => rfl
  | cons c rest ih =>
    obtain ⟨here, later⟩ := List.forall_mem_cons.mp same
    rw [contactsMade, contactsMade, here, ih later]

theorem contactsMade_subset (id : UInt8) (m : Mem) (listed : List (UInt16 × Fate)) :
    contactsMade id m listed ⊆ listed := by
  induction listed with
  | nil => exact List.Subset.refl _
  | cons c rest ih =>
    rw [contactsMade]
    split
    · exact List.cons_subset_cons c (List.nil_subset _)
    · exact List.cons_subset_cons c ih

theorem setComs_deliver_listed (u : Update) (m : Mem) (fate : Fate) {rest : List (UInt16 × Fate)}
    (unlisted : q ∉ rest.map Prod.fst) :
    ∀ c ∈ rest, (m.setComs q (fate.deliver u (m.coms q))).coms c.1 = m.coms c.1 := by
  intro c member
  apply setComs_deliver_other
  rintro rfl
  exact unlisted (List.mem_map_of_mem member)

theorem contactAll_none_iff (u : Update) (someStale someFresh : Bool) (m : Mem)
    (distinct : (listed.map Prod.fst).Nodup) :
    (contactAll u listed someStale someFresh m).1 = none ↔
      ∃ c ∈ listed, c.2.outcome u.id (m.coms c.1).versionNum = none := by
  induction listed generalizing someStale someFresh m with
  | nil => simp [contactAll]
  | cons c rest ih =>
    obtain ⟨q, fate⟩ := c
    obtain ⟨unlisted, distinct⟩ := List.nodup_cons.mp distinct
    have same := setComs_deliver_listed u m fate unlisted
    have later : (∃ c ∈ rest, c.2.outcome u.id
          ((m.setComs q (fate.deliver u (m.coms q))).coms c.1).versionNum = none) ↔
        ∃ c ∈ rest, c.2.outcome u.id (m.coms c.1).versionNum = none := by
      refine exists_congr fun c => and_congr_right fun member => ?_
      rw [same c member]
    rw [List.exists_mem_cons_iff]
    simp only [contactAll]
    split
    · next fails => exact iff_of_true rfl (.inl fails)
    · next succeeds => simp only [ih _ _ _ distinct, later, succeeds, reduceCtorEq, false_or]
    · next succeeds => simp only [ih _ _ _ distinct, later, succeeds, reduceCtorEq, false_or]

/-- A server away from the id is updated if it is served, and any other is as it was. -/
def LeftBy (u : Update) (served : Prop) (c c₁ : Coms) : Prop :=
  (c.versionNum ≠ u.id ∧ served → c₁ = c.actuallyUpdate u) ∧
    (¬ (c.versionNum ≠ u.id ∧ served) → c₁ = c)

theorem deliver_leftBy (u : Update) (c : Coms) (fate : Fate) :
    LeftBy u (∃ last, fate = .served last) c (fate.deliver u c) := by
  constructor
  · rintro ⟨stale, last, rfl⟩
    exact if_neg stale
  · intro missed
    by_cases settled : c.versionNum = u.id
    · exact deliver_at u fate settled
    · exact deliver_not_served u c fun last served => missed ⟨settled, last, served⟩

theorem contactAll_leftBy (u : Update) (someStale someFresh : Bool) (m : Mem)
    (distinct : (listed.map Prod.fst).Nodup) (p : UInt16) :
    LeftBy u (Serves (contactsMade u.id m listed) p) (m.coms p)
      ((contactAll u listed someStale someFresh m).2.coms p) := by
  induction listed generalizing someStale someFresh m with
  | nil =>
    constructor
    · rintro ⟨_, _, member⟩
      cases member
    · intro _
      rfl
  | cons c rest ih =>
    obtain ⟨q, fate⟩ := c
    obtain ⟨unlisted, distinct⟩ := List.nodup_cons.mp distinct
    let m₁ := m.setComs q (fate.deliver u (m.coms q))
    have same := setComs_deliver_listed u m fate unlisted
    have madeAfter : contactsMade u.id m₁ rest = contactsMade u.id m rest :=
      contactsMade_congr u.id fun c member => congrArg Coms.versionNum (same c member)
    by_cases own : p = q
    · subst own
      have notLater : ∀ made, made ⊆ rest → ¬ Serves made p := by
        rintro made inside ⟨last, member⟩
        exact unlisted (List.mem_map.mpr ⟨_, inside member, rfl⟩)
      have kept : ∀ someStale someFresh, (contactAll u rest someStale someFresh m₁).2.coms p = m₁.coms p :=
        fun _ _ => contactAll_missed u _ _ m₁ (notLater rest (List.Subset.refl _))
      have result : (contactAll u ((p, fate) :: rest) someStale someFresh m).2.coms p =
          fate.deliver u (m.coms p) := by
        simp only [contactAll]
        split
        · exact setComs_same _ _ _
        · rw [kept]
          exact setComs_same _ _ _
        · rw [kept]
          exact setComs_same _ _ _
      have served : Serves (contactsMade u.id m ((p, fate) :: rest)) p ↔ ∃ last, fate = .served last := by
        rw [contactsMade, serves_cons]
        constructor
        · rintro (⟨_, served⟩ | later)
          · exact served
          · refine absurd later (notLater _ ?_)
            split
            · exact List.nil_subset _
            · exact contactsMade_subset _ _ _
        · intro served
          exact .inl ⟨rfl, served⟩
      rw [served, result]
      exact deliver_leftBy u (m.coms p) fate
    · have untouched : m₁.coms p = m.coms p := setComs_deliver_other u m fate own
      rw [contactsMade, serves_cons]
      simp only [own, false_and, false_or, contactAll]
      split
      · next fails =>
        simp only [fails]
        constructor
        · rintro ⟨_, _, member⟩
          cases member
        · intro _
          exact untouched
      · next succeeds =>
        rw [← madeAfter, ← untouched]
        split
        · next fails => exact absurd fails succeeds
        · exact ih _ _ m₁ distinct
        · exact ih _ _ m₁ distinct

theorem targets_sublist (ownPort : UInt16) (fail : Int8) (i : Nat) (ports : List UInt16) :
    (targets ownPort fail i ports).Sublist ports := by
  induction ports generalizing i with
  | nil => exact .slnil
  | cons port ports ih =>
    unfold targets
    split
    · exact (ih (i + 1)).cons port
    · exact (ih (i + 1)).cons_cons port

/-- The contacts of a call, each with what becomes of it. -/
def contactList (ownPort : UInt16) (fail : Int8) (ports : List UInt16) (fates : List Fate) :
    List (UInt16 × Fate) :=
  (targets ownPort fail 0 ports).zip fates

theorem contactList_distinct (ownPort : UInt16) (fail : Int8) (distinct : ports.Nodup)
    (enough : (targets ownPort fail 0 ports).length ≤ fates.length) :
    ((contactList ownPort fail ports fates).map Prod.fst).Nodup := by
  rw [contactList, List.map_fst_zip enough]
  exact distinct.sublist (targets_sublist ownPort fail 0 ports)

/-- The call brings the server from another version to the update's id: it is contacted
and served before any contact fails, or it is the initiator and no contact fails. -/
def Brought (u : Update) (self ownPort : UInt16) (fail : Int8) (acks : Nat) (fates : List Fate)
    (m : Mem) (ports : List UInt16) (p : UInt16) : Prop :=
  (m.coms p).versionNum ≠ u.id ∧ fail ≠ -1 ∧ ports.length ≤ acks ∧
    (Serves (contactsMade u.id m (contactList ownPort fail ports fates)) p ∨
      p = self ∧ ∀ c ∈ contactList ownPort fail ports fates,
        c.2.outcome u.id (m.coms c.1).versionNum ≠ none)

/-- The initiator's own update, made only when it was away from the id before the contacts. -/
theorem initiator_update (u : Update) (self : UInt16) (m m₁ : Mem) (p : UInt16) :
    let m₂ := if (m.coms self).versionNum != u.id
      then m₁.setComs self ((m₁.coms self).actuallyUpdate u) else m₁
    (p = self ∧ (m.coms self).versionNum ≠ u.id → m₂.coms p = (m₁.coms p).actuallyUpdate u) ∧
      (¬ (p = self ∧ (m.coms self).versionNum ≠ u.id) → m₂.coms p = m₁.coms p) := by
  intro m₂
  constructor
  · rintro ⟨rfl, stale⟩
    simp only [m₂]
    rw [if_pos (by simpa using stale), setComs_same]
  · intro apart
    simp only [m₂]
    split
    · next stale =>
      refine setComs_other m₁ ?_ _
      rintro rfl
      exact apart ⟨rfl, by simpa using stale⟩
    · rfl

theorem updateAll_brought (u : Update) (self ownPort : UInt16) (fail : Int8) (acks : Nat) (m : Mem)
    (distinct : ports.Nodup) (enough : (targets ownPort fail 0 ports).length ≤ fates.length)
    (p : UInt16) :
    (Brought u self ownPort fail acks fates m ports p →
      Applied u (m.coms p) ((updateAll u self ownPort fail ports acks fates m).2.coms p)) ∧
    (¬ Brought u self ownPort fail acks fates m ports p →
      (updateAll u self ownPort fail ports acks fates m).2.coms p = m.coms p) := by
  have once := contactList_distinct ownPort fail distinct enough
  unfold updateAll
  by_cases backdoor : fail = -1
  · rw [if_pos backdoor]
    exact ⟨fun brought => absurd backdoor brought.2.1, fun _ => rfl⟩
  rw [if_neg backdoor]
  by_cases refused : acks < ports.length
  · rw [if_pos refused]
    exact ⟨fun brought => absurd brought.2.2.1 (Nat.not_le.mpr refused), fun _ => rfl⟩
  rw [if_neg refused]
  have listed := Nat.not_lt.mp refused
  have left := contactAll_leftBy u false false m once p
  have failing := contactAll_none_iff u false false m once
  rw [show (targets ownPort fail 0 ports).zip fates = contactList ownPort fail ports fates from rfl]
  cases result : contactAll u (contactList ownPort fail ports fates) false false m with
  | mk flags m₁ =>
  rw [result] at left failing
  cases flags with
  | none =>
    obtain ⟨c, member, fails⟩ := failing.mp rfl
    have notWhole : ¬ ∀ c ∈ contactList ownPort fail ports fates,
        c.2.outcome u.id (m.coms c.1).versionNum ≠ none := fun whole => whole c member fails
    simp only [Brought, backdoor, listed, notWhole, and_false, or_false, ne_eq, not_false_eq_true,
      true_and]
    constructor
    · intro brought
      rw [left.1 brought]
      exact ⟨rfl, actuallyUpdate_table _ _⟩
    · exact left.2
  | some flags =>
    have whole : ∀ c ∈ contactList ownPort fail ports fates,
        c.2.outcome u.id (m.coms c.1).versionNum ≠ none := by
      intro c member fails
      exact absurd (failing.mpr ⟨c, member, fails⟩) (by simp)
    have made : Brought u self ownPort fail acks fates m ports p ↔ (m.coms p).versionNum ≠ u.id ∧
        (Serves (contactsMade u.id m (contactList ownPort fail ports fates)) p ∨ p = self) := by
      unfold Brought
      constructor
      · rintro ⟨stale, _, _, served | ⟨own, _⟩⟩
        · exact ⟨stale, .inl served⟩
        · exact ⟨stale, .inr own⟩
      · rintro ⟨stale, served | own⟩
        · exact ⟨stale, backdoor, listed, .inl served⟩
        · exact ⟨stale, backdoor, listed, .inr ⟨own, whole⟩⟩
    rw [made]
    obtain ⟨owned, others⟩ := initiator_update u self m m₁ p
    by_cases own : p = self ∧ (m.coms self).versionNum ≠ u.id
    · obtain ⟨rfl, stale⟩ := own
      refine ⟨fun _ => ?_, fun missed => absurd ⟨stale, .inr rfl⟩ missed⟩
      rw [owned ⟨rfl, stale⟩]
      refine ⟨rfl, ?_⟩
      rw [actuallyUpdate_table]
      by_cases served : Serves (contactsMade u.id m (contactList ownPort fail ports fates)) p
      · rw [left.1 ⟨stale, served⟩, actuallyUpdate_table, u.apply_apply]
      · rw [left.2 fun contacted => served contacted.2]
    · rw [others own]
      constructor
      · rintro ⟨stale, served | rfl⟩
        · rw [left.1 ⟨stale, served⟩]
          exact ⟨rfl, actuallyUpdate_table _ _⟩
        · exact absurd ⟨rfl, stale⟩ own
      · intro missed
        exact left.2 fun contacted => missed ⟨contacted.1, .inl contacted.2⟩

end DnsServer
