import DnsServer.Cluster.Contacts

/-! What the code returned by `update_hosts` tells of the servers it contacted. -/
namespace DnsServer
open Process Program

/-- The server is at the update's id with the update made to its table. -/
def Applied (u : Update) (before after : Coms) : Prop :=
  after.versionNum = u.id ∧ after.table = u.apply before.table

/-- The update makes no difference to the server. -/
def Settled (u : Update) (c : Coms) : Prop := c.versionNum = u.id ∧ u.apply c.table = c.table

def Unchanged (m m₁ : Mem) : Prop :=
  ∀ p, (m₁.coms p).table = (m.coms p).table ∧ (m₁.coms p).versionNum = (m.coms p).versionNum

/-- Some contact with `p` hands it the whole text. -/
def Serves (made : List (UInt16 × Fate)) (p : UInt16) : Prop :=
  ∃ last, (p, Fate.served last) ∈ made

/-- Any server served away from the update's id comes after a contact that fails. -/
def Spared (u : Update) (m : Mem) (made : List (UInt16 × Fate)) : Prop :=
  ∀ before p last after, made = before ++ (p, Fate.served last) :: after →
    (m.coms p).versionNum ≠ u.id →
    ∃ c ∈ before, c.2.outcome u.id (m.coms c.1).versionNum = none

theorem serves_cons : Serves ((q, fate) :: made) p ↔
    (p = q ∧ ∃ last, fate = .served last) ∨ Serves made p := by
  constructor
  · rintro ⟨last, member⟩
    rcases List.mem_cons.mp member with same | member
    · cases same
      exact .inl ⟨rfl, last, rfl⟩
    · exact .inr ⟨last, member⟩
  · rintro (⟨rfl, last, rfl⟩ | ⟨last, member⟩)
    · exact ⟨last, List.mem_cons_self⟩
    · exact ⟨last, List.mem_cons_of_mem _ member⟩

theorem deliver_at (u : Update) {c : Coms} (fate : Fate) (settled : c.versionNum = u.id) :
    fate.deliver u c = c := by
  cases fate with
  | refused => rfl
  | closed garbage last => rfl
  | silent last => rfl
  | served last => exact if_pos settled

theorem deliver_not_served (u : Update) (c : Coms) {fate : Fate}
    (missed : ∀ last, fate ≠ .served last) : fate.deliver u c = c := by
  cases fate with
  | refused => rfl
  | closed garbage last => rfl
  | silent last => rfl
  | served last => exact absurd rfl (missed last)

theorem setComs_deliver_other (u : Update) (m : Mem) (fate : Fate) (other : p ≠ q) :
    (m.setComs q (fate.deliver u (m.coms q))).coms p = m.coms p :=
  setComs_other m other _

/-- A server that each of its contacts leaves as it is stays so. -/
theorem contactAll_keeps (u : Update) (someStale someFresh : Bool) (m : Mem)
    (keeps : ∀ fate, (p, fate) ∈ made → fate.deliver u (m.coms p) = m.coms p) :
    (contactAll u made someStale someFresh m).2.coms p = m.coms p := by
  induction made generalizing someStale someFresh m with
  | nil => rfl
  | cons contact made ih =>
    obtain ⟨q, fate⟩ := contact
    have same : (m.setComs q (fate.deliver u (m.coms q))).coms p = m.coms p := by
      by_cases own : p = q
      · subst own
        rw [setComs_same, keeps fate List.mem_cons_self]
      · exact setComs_deliver_other u m fate own
    have rest : ∀ someStale someFresh,
        (contactAll u made someStale someFresh (m.setComs q (fate.deliver u (m.coms q)))).2.coms p = m.coms p := by
      intro someStale someFresh
      rw [ih, same]
      rw [same]
      exact fun fate member => keeps fate (List.mem_cons_of_mem _ member)
    simp only [contactAll]
    split
    · exact same
    · exact rest someStale true
    · exact rest true someFresh

/-- A server at the id stays as it is, however the contacts end. -/
theorem contactAll_at (u : Update) (made : List (UInt16 × Fate)) (someStale someFresh : Bool)
    (m : Mem) (settled : (m.coms p).versionNum = u.id) :
    (contactAll u made someStale someFresh m).2.coms p = m.coms p :=
  contactAll_keeps u someStale someFresh m fun fate _ => deliver_at u fate settled

/-- The contacts change no server but those they serve. -/
theorem contactAll_missed (u : Update) (someStale someFresh : Bool) (m : Mem)
    (missed : ¬ Serves made p) :
    (contactAll u made someStale someFresh m).2.coms p = m.coms p := by
  refine contactAll_keeps u someStale someFresh m fun fate member => ?_
  refine deliver_not_served u _ ?_
  rintro last rfl
  exact missed ⟨last, member⟩

/-- When every contact is made, a server away from the id that they serve is updated. -/
theorem contactAll_served (u : Update) (stale : (m.coms p).versionNum ≠ u.id)
    (complete : contactAll u made someStale someFresh m = (some flags, m₁))
    (served : Serves made p) : m₁.coms p = (m.coms p).actuallyUpdate u := by
  induction made generalizing someStale someFresh m with
  | nil =>
    obtain ⟨_, member⟩ := served
    cases member
  | cons contact made ih =>
    obtain ⟨q, fate⟩ := contact
    have rest : ∃ someStale someFresh,
        contactAll u made someStale someFresh (m.setComs q (fate.deliver u (m.coms q))) =
          (some flags, m₁) := by
      simp only [contactAll] at complete
      split at complete
      · cases complete
      · exact ⟨_, _, complete⟩
      · exact ⟨_, _, complete⟩
    obtain ⟨someStale, someFresh, rest⟩ := rest
    by_cases here : p = q ∧ ∃ last, fate = .served last
    · obtain ⟨rfl, last, rfl⟩ := here
      have updated : (m.setComs p ((Fate.served last).deliver u (m.coms p))).coms p =
          (m.coms p).actuallyUpdate u := by
        rw [setComs_same]
        exact if_neg stale
      have kept := contactAll_at (p := p) u made someStale someFresh _ (congrArg Coms.versionNum updated)
      rw [rest, updated] at kept
      exact kept
    · have later := (serves_cons.mp served).resolve_left here
      have same : (m.setComs q (fate.deliver u (m.coms q))).coms p = m.coms p := by
        by_cases own : p = q
        · subst own
          rw [setComs_same, deliver_not_served u _ fun last served => here ⟨rfl, last, served⟩]
        · exact setComs_deliver_other u m fate own
      have updated := ih (by rw [same]; exact stale) rest later
      rw [same] at updated
      exact updated

/-- A first contact that neither fails nor serves a stale server decides nothing. -/
theorem spared_cons (u : Update) (m : Mem)
    (harmless : ¬ ((∃ last, fate = Fate.served last) ∧ (m.coms q).versionNum ≠ u.id))
    (succeeds : fate.outcome u.id (m.coms q).versionNum ≠ none) :
    Spared u m ((q, fate) :: made) ↔ Spared u m made := by
  constructor
  · intro spared before p last after split stale
    obtain ⟨c, member, fails⟩ := spared ((q, fate) :: before) p last after (by rw [split]; rfl) stale
    rcases List.mem_cons.mp member with rfl | member
    · exact absurd fails succeeds
    · exact ⟨c, member, fails⟩
  · intro spared before p last after split stale
    cases before with
    | nil =>
      cases split
      exact absurd ⟨⟨last, rfl⟩, stale⟩ harmless
    | cons c before =>
      cases split
      obtain ⟨c, member, fails⟩ := spared before p last after rfl stale
      exact ⟨c, List.mem_cons_of_mem _ member, fails⟩

/-- When the initiator gives up, no server has changed exactly if none was served before. -/
theorem contactAll_unchanged_iff (u : Update)
    (aborted : contactAll u made someStale someFresh m = (none, m₁)) :
    Unchanged m m₁ ↔ Spared u m made := by
  induction made generalizing someStale someFresh m with
  | nil => cases aborted
  | cons contact made ih =>
    obtain ⟨q, fate⟩ := contact
    by_cases hit : (∃ last, fate = Fate.served last) ∧ (m.coms q).versionNum ≠ u.id
    · obtain ⟨⟨last, rfl⟩, stale⟩ := hit
      have delivered : ((m.setComs q ((Fate.served last).deliver u (m.coms q))).coms q).versionNum =
          u.id := by
        rw [setComs_same]
        exact congrArg Coms.versionNum (if_neg stale)
      have ends : (m₁.coms q).versionNum = u.id := by
        simp only [contactAll] at aborted
        split at aborted
        · cases aborted
          exact delivered
        · have kept := contactAll_at (p := q) u made someStale true _ delivered
          rw [aborted] at kept
          exact (congrArg Coms.versionNum kept).trans delivered
        · have kept := contactAll_at (p := q) u made true someFresh _ delivered
          rw [aborted] at kept
          exact (congrArg Coms.versionNum kept).trans delivered
      constructor
      · intro unchanged
        exact absurd ((unchanged q).2.symm.trans ends) stale
      · intro spared
        obtain ⟨_, member, _⟩ := spared [] q last made rfl stale
        cases member
    · have same : fate.deliver u (m.coms q) = m.coms q := by
        by_cases served : ∃ last, fate = Fate.served last
        · exact deliver_at u fate (not_not.mp fun stale => hit ⟨served, stale⟩)
        · exact deliver_not_served u _ fun last is => served ⟨last, is⟩
      simp only [contactAll, same, setComs_self] at aborted
      split at aborted
      · next fails =>
        cases aborted
        refine iff_of_true (fun p => ⟨rfl, rfl⟩) ?_
        intro before p last after split stale
        cases before with
        | nil =>
          cases split
          exact absurd ⟨⟨last, rfl⟩, stale⟩ hit
        | cons c before =>
          cases split
          exact ⟨(q, fate), List.mem_cons_self, fails⟩
      · next fresh =>
        rw [spared_cons u m hit (by rw [fresh]; simp)]
        exact ih aborted
      · next stale =>
        rw [spared_cons u m hit (by rw [stale]; simp)]
        exact ih aborted

theorem updateCode_completed (thisStale someStale someFresh : Bool) :
    ¬ (updateCode thisStale someStale someFresh = 1 ∨ updateCode thisStale someStale someFresh = 3) := by
  revert thisStale someStale someFresh
  decide

theorem settled_iff (u : Update) (c : Coms) : Settled u c ↔ Applied u c c := by
  unfold Settled Applied
  rw [@eq_comm _ c.table]

/-- A server at the id stays as it is through a whole call. -/
theorem atId_kept (u : Update) (self : UInt16)
    (complete : contactAll u made someStale someFresh m = (some flags, m₁))
    (atId : (m.coms p).versionNum = u.id) :
    (if (m.coms self).versionNum != u.id
      then m₁.setComs self ((m₁.coms self).actuallyUpdate u) else m₁).coms p = m.coms p := by
  have kept := contactAll_at u made someStale someFresh m atId
  rw [complete] at kept
  split
  · next stale =>
    have other : p ≠ self := by
      rintro rfl
      simp [atId] at stale
    rw [setComs_other m₁ other]
    exact kept
  · exact kept

/-- What the initiator's own update makes of a server after the contacts. -/
theorem applied_iff (u : Update) (self : UInt16)
    (complete : contactAll u made someStale someFresh m = (some flags, m₁)) (p : UInt16) :
    Applied u (m.coms p) ((if (m.coms self).versionNum != u.id
        then m₁.setComs self ((m₁.coms self).actuallyUpdate u) else m₁).coms p) ↔
      Settled u (m.coms p) ∨ (m.coms p).versionNum ≠ u.id ∧ (p = self ∨ Serves made p) := by
  have missed : ¬ Serves made p → m₁.coms p = m.coms p := by
    intro missed
    have same := contactAll_missed u someStale someFresh m missed
    rw [complete] at same
    exact same
  by_cases atId : (m.coms p).versionNum = u.id
  · rw [atId_kept u self complete atId, ← settled_iff]
    simp [atId]
  · have unsettled : ¬ Settled u (m.coms p) := fun settled => atId settled.1
    by_cases served : Serves made p
    · have updated := contactAll_served u atId complete served
      refine iff_of_true ?_ (.inr ⟨atId, .inr served⟩)
      split
      · by_cases own : p = self
        · subst own
          rw [setComs_same, updated]
          exact ⟨rfl, by rw [actuallyUpdate_table, actuallyUpdate_table, u.apply_apply]⟩
        · rw [setComs_other m₁ own, updated]
          exact ⟨rfl, actuallyUpdate_table _ _⟩
      · rw [updated]
        exact ⟨rfl, actuallyUpdate_table _ _⟩
    · by_cases own : p = self
      · subst own
        refine iff_of_true ?_ (.inr ⟨atId, .inl rfl⟩)
        rw [if_pos (by simpa using atId), setComs_same, missed served]
        exact ⟨rfl, actuallyUpdate_table _ _⟩
      · refine iff_of_false ?_ ?_
        · rintro ⟨reached, _⟩
          apply atId
          rw [← reached, ← missed served]
          split
          · rw [setComs_other m₁ own]
          · rfl
        · rintro (settled | ⟨_, here | later⟩)
          · exact unsettled settled
          · exact own here
          · exact served later

section
variable {m m₁ : Mem} {n : Contacts}

/-- A call that reports completion has updated the initiator and every server of the port
list exactly when each was away from the id and, the initiator apart, served the whole
text, or already had the update at the id. -/
theorem completed_applied_iff (u : Update) (carried : u.Carried) (self ownPort : UInt16) (fail : Int8)
    (few : ports.length ≤ 255) (enough : (targets ownPort fail 0 ports).length ≤ fates.length)
    (ran : Runs contacts (updateHosts self u.remove u.domain u.ip ownPort u.id fail)
      (m, announce ports acks fates) code (m₁, n))
    (completed : code = 0 ∨ code = 6 ∨ code = 8 ∨ code = 9) :
    (∀ p, p = self ∨ p ∈ ports → Applied u (m.coms p) (m₁.coms p)) ↔
      ∀ p, p = self ∨ p ∈ ports → Settled u (m.coms p) ∨
        (m.coms p).versionNum ≠ u.id ∧
          (p = self ∨ Serves ((targets ownPort fail 0 ports).zip fates) p) := by
  obtain ⟨_, computed⟩ := updateHosts_runs u carried self ownPort fail ports acks fates m few enough
  obtain ⟨rfl, same⟩ := ran.unique computed
  obtain ⟨rfl, _⟩ := Prod.mk.inj same
  have gaveUp : ¬ ((1 : UInt8) = 0 ∨ (1 : UInt8) = 6 ∨ (1 : UInt8) = 8 ∨ (1 : UInt8) = 9) := by decide
  unfold updateAll at completed ⊢
  split
  · next backdoor =>
    rw [if_pos backdoor] at completed
    exact absurd completed (show ¬ ((3 : UInt8) = 0 ∨ (3 : UInt8) = 6 ∨ (3 : UInt8) = 8 ∨
      (3 : UInt8) = 9) by decide)
  next sent =>
  rw [if_neg sent] at completed
  split
  · next refused =>
    rw [if_pos refused] at completed
    exact absurd completed gaveUp
  next listed =>
  rw [if_neg listed] at completed
  cases result : contactAll u ((targets ownPort fail 0 ports).zip fates) false false m with
  | mk flags m₂ =>
  cases flags with
  | none =>
    rw [result] at completed
    exact absurd completed gaveUp
  | some flags =>
    refine forall_congr' fun p => imp_congr_right fun _ => ?_
    exact applied_iff u self result p

theorem completed_applied_served :
    ∃ m₁ n, Runs contacts (updateHosts 1 false (addNewDomain 1).domain (addNewDomain 1).ip 1 1 5)
        (startMem .roundRobin, announce [1, 2] 3 [.served true]) 0 (m₁, n) ∧
      ((∀ p, p = 1 ∨ p ∈ [1, 2] →
          Applied (addNewDomain 1) ((startMem .roundRobin).coms p) (m₁.coms p)) ↔
        ∀ p, p = 1 ∨ p ∈ [1, 2] → Settled (addNewDomain 1) ((startMem .roundRobin).coms p) ∨
          ((startMem .roundRobin).coms p).versionNum ≠ (addNewDomain 1).id ∧
            (p = 1 ∨ Serves ((targets 1 5 0 [1, 2]).zip [.served true]) p)) := by
  obtain ⟨n, ran⟩ := updateHosts_runs (addNewDomain 1) (addNewDomain_carried 1) 1 1 5 [1, 2]
    3 [.served true] (startMem .roundRobin) (by decide) (by decide)
  exact ⟨_, n, ran, completed_applied_iff (addNewDomain 1) (addNewDomain_carried 1) 1 1 5 (by decide)
    (by decide) ran (by decide)⟩

/-- A peer that closes after sending its version is not told from one that took the text. -/
theorem silent_peer_completes :
    ∃ m₁ n, Runs contacts (updateHosts 1 false (addNewDomain 1).domain (addNewDomain 1).ip 1 1 5)
        (startMem .roundRobin, announce [1, 2] 3 [.silent true]) 0 (m₁, n) ∧
      ¬ Applied (addNewDomain 1) ((startMem .roundRobin).coms 2) (m₁.coms 2) := by
  obtain ⟨n, ran⟩ := updateHosts_runs (addNewDomain 1) (addNewDomain_carried 1) 1 1 5 [1, 2]
    3 [.silent true] (startMem .roundRobin) (by decide) (by decide)
  refine ⟨_, n, ran, ?_⟩
  rintro ⟨reached, _⟩
  revert reached
  decide

/-- A call that reports an error has changed no server exactly when it gave up before any
contact, or before the first contact that serves a server away from the id. -/
theorem aborted_unchanged_iff (u : Update) (carried : u.Carried) (self ownPort : UInt16) (fail : Int8)
    (few : ports.length ≤ 255) (enough : (targets ownPort fail 0 ports).length ≤ fates.length)
    (ran : Runs contacts (updateHosts self u.remove u.domain u.ip ownPort u.id fail)
      (m, announce ports acks fates) code (m₁, n))
    (aborted : code = 1 ∨ code = 3) :
    Unchanged m m₁ ↔ fail = -1 ∨ acks < ports.length ∨
      Spared u m ((targets ownPort fail 0 ports).zip fates) := by
  obtain ⟨_, computed⟩ := updateHosts_runs u carried self ownPort fail ports acks fates m few enough
  obtain ⟨rfl, same⟩ := ran.unique computed
  obtain ⟨rfl, _⟩ := Prod.mk.inj same
  unfold updateAll at aborted ⊢
  by_cases backdoor : fail = -1
  · rw [if_pos backdoor]
    exact iff_of_true (fun p => ⟨rfl, rfl⟩) (.inl backdoor)
  rw [if_neg backdoor] at aborted ⊢
  by_cases refused : acks < ports.length
  · rw [if_pos refused]
    exact iff_of_true (fun p => ⟨rfl, rfl⟩) (.inr (.inl refused))
  rw [if_neg refused] at aborted ⊢
  cases result : contactAll u ((targets ownPort fail 0 ports).zip fates) false false m with
  | mk flags m₂ =>
  cases flags with
  | none =>
    simp only [backdoor, refused, false_or]
    exact contactAll_unchanged_iff u result
  | some flags =>
    rw [result] at aborted
    exact absurd aborted (updateCode_completed _ _ _)

theorem aborted_unchanged_refused :
    ∃ m₁ n, Runs contacts (updateHosts 1 false (addNewDomain 1).domain (addNewDomain 1).ip 1 1 5)
        (startMem .roundRobin, announce [1, 2] 3 [.refused]) 1 (m₁, n) ∧
      (Unchanged (startMem .roundRobin) m₁ ↔ (5 : Int8) = -1 ∨ 3 < [(1 : UInt16), 2].length ∨
        Spared (addNewDomain 1) (startMem .roundRobin) ((targets 1 5 0 [1, 2]).zip [.refused])) := by
  obtain ⟨n, ran⟩ := updateHosts_runs (addNewDomain 1) (addNewDomain_carried 1) 1 1 5 [1, 2]
    3 [.refused] (startMem .roundRobin) (by decide) (by decide)
  exact ⟨_, n, ran, aborted_unchanged_iff (addNewDomain 1) (addNewDomain_carried 1) 1 1 5 (by decide)
    (by decide) ran (by decide)⟩

/-- The first peer has applied the update when the second one fails. -/
theorem second_peer_aborts :
    ∃ m₁ n, Runs contacts (updateHosts 1 false (addNewDomain 1).domain (addNewDomain 1).ip 1 1 5)
        (startMem .roundRobin, announce [1, 2, 3] 4 [.served true, .refused]) 1 (m₁, n) ∧
      ¬ Unchanged (startMem .roundRobin) m₁ := by
  obtain ⟨n, ran⟩ := updateHosts_runs (addNewDomain 1) (addNewDomain_carried 1) 1 1 5 [1, 2, 3]
    4 [.served true, .refused] (startMem .roundRobin) (by decide) (by decide)
  refine ⟨_, n, ran, ?_⟩
  intro unchanged
  have changed := (unchanged 2).2
  revert changed
  decide

end

end DnsServer
