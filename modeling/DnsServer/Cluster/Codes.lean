import DnsServer.Cluster.Outcomes

/-! The codes of `update_hosts` when nothing fails, and the cluster that such a call leaves. -/
namespace DnsServer
open Process Program

/-- The other servers of the port list. -/
def peers (self : UInt16) (ports : List UInt16) : List UInt16 := ports.filter (· ≠ self)

def Mem.AtId (m : Mem) (u : Update) (p : UInt16) : Prop := (m.coms p).versionNum = u.id

instance (m : Mem) (u : Update) : DecidablePred (m.AtId u) := fun p =>
  inferInstanceAs (Decidable ((m.coms p).versionNum = u.id))

/-- What the code says of the servers before the call. -/
structure Classifies (u : Update) (own : UInt16) (ports : List UInt16) (m : Mem) (code : UInt8) : Prop where
  allFresh : code = 6 ↔ m.AtId u own ∧ ∀ p ∈ peers own ports, m.AtId u p
  selfFresh : code = 9 ↔ m.AtId u own ∧ ∃ p ∈ peers own ports, ¬ m.AtId u p
  selfStale : code = 8 ↔ ¬ m.AtId u own ∧ ∃ p ∈ peers own ports, m.AtId u p
  noneFresh : code = 0 ↔ ¬ m.AtId u own ∧ ∀ p ∈ peers own ports, ¬ m.AtId u p
  reachable : code ≠ 10

/-- The server ends at the id. If it was there its table is the same, if not the update is made to it. -/
structure Converged (u : Update) (before after : Coms) : Prop where
  versionNum : after.versionNum = u.id
  kept : before.versionNum = u.id → after.table = before.table
  prescribed : before.versionNum ≠ u.id → after.table.lookup u.domain = u.entry
  elsewhere : ∀ d, d ≠ u.domain → after.table.lookup d = before.table.lookup d

theorem converged_same (u : Update) {c : Coms} (atId : c.versionNum = u.id) : Converged u c c where
  versionNum := atId
  kept _ := rfl
  prescribed stale := absurd atId stale
  elsewhere _ _ := rfl

theorem converged_applied (u : Update) {before after : Coms} (stale : before.versionNum ≠ u.id)
    (applied : Applied u before after) : Converged u before after where
  versionNum := applied.1
  kept atId := absurd atId stale
  prescribed _ := by rw [applied.2, lookup_apply, if_pos rfl]
  elsewhere d other := by rw [applied.2, lookup_apply, if_neg other]

/-- Skipping the fail index skips no one else. -/
theorem targets_eq_peers (fail : Int8) (ports : List UInt16) (i : Nat)
    (fair : ∀ j : Nat, ∀ port ∈ ports[j]?, ((i + j : Nat) : Int) = fail.toInt → port = self) :
    targets self fail i ports = peers self ports := by
  induction ports generalizing i with
  | nil => rfl
  | cons port ports ih =>
    have rest := ih (i + 1) fun j port at_ named => fair (j + 1) port at_ (by omega)
    by_cases own : port = self
    · rw [targets, if_pos (.inl own), rest, peers, peers, List.filter_cons_of_neg (by simp [own])]
    · have skipped : ¬ (port = self ∨ (i : Int) = fail.toInt) := by
        rintro (own' | named)
        · exact own own'
        · exact own (fair 0 port rfl named)
      rw [targets, if_neg skipped, rest, peers, peers, List.filter_cons_of_pos (by simp [own])]

theorem any_congr {l : List α} {f g : α → Bool} (same : ∀ a ∈ l, f a = g a) : l.any f = l.any g := by
  induction l with
  | nil => rfl
  | cons a l ih =>
    rw [List.any_cons, List.any_cons, same a List.mem_cons_self,
      ih fun b member => same b (List.mem_cons_of_mem a member)]

/-- Contacts that are all served tell of each server whether it was at the id. -/
theorem contactAll_flags (u : Update) {ports : List UInt16} (distinct : ports.Nodup)
    (someStale someFresh : Bool) (m : Mem) :
    ∃ m₁, contactAll u (ports.map fun p => (p, Fate.served true)) someStale someFresh m =
      (some (someStale || ports.any fun p => !decide (m.AtId u p),
        someFresh || ports.any fun p => decide (m.AtId u p)), m₁) := by
  induction ports generalizing someStale someFresh m with
  | nil => exact ⟨m, by simp [contactAll]⟩
  | cons port ports ih =>
    obtain ⟨new, distinct⟩ := List.nodup_cons.mp distinct
    let m₁ := m.setComs port ((Fate.served true).deliver u (m.coms port))
    have others : ∀ p ∈ ports, decide (m₁.AtId u p) = decide (m.AtId u p) := by
      intro p member
      have other : p ≠ port := fun same => new (same ▸ member)
      have untouched : m₁.coms p = m.coms p := setComs_deliver_other u m _ other
      exact decide_eq_decide.mpr (by rw [Mem.AtId, Mem.AtId, untouched])
    have fresh : ports.any (fun p => decide (m₁.AtId u p)) = ports.any fun p => decide (m.AtId u p) :=
      any_congr others
    have stale : ports.any (fun p => !decide (m₁.AtId u p)) = ports.any fun p => !decide (m.AtId u p) :=
      any_congr fun p member => congrArg not (others p member)
    by_cases atId : (m.coms port).versionNum = u.id
    · obtain ⟨m₂, rest⟩ := ih distinct someStale true m₁
      have learned : (Fate.served true).outcome u.id (m.coms port).versionNum = some true := if_pos atId
      refine ⟨m₂, ?_⟩
      rw [List.map_cons, contactAll, learned]
      simp only [m₁] at rest fresh stale
      simp only [rest, fresh, stale]
      simp [Mem.AtId, atId]
    · obtain ⟨m₂, rest⟩ := ih distinct true someFresh m₁
      have learned : (Fate.served true).outcome u.id (m.coms port).versionNum = some false := if_neg atId
      refine ⟨m₂, ?_⟩
      rw [List.map_cons, contactAll, learned]
      simp only [m₁] at rest fresh stale
      simp only [rest, fresh, stale]
      simp [Mem.AtId, atId]

theorem zip_replicate (ports : List UInt16) (fate : Fate) :
    ports.zip (List.replicate ports.length fate) = ports.map fun p => (p, fate) := by
  induction ports with
  | nil => rfl
  | cons port ports ih => rw [List.length_cons, List.replicate_succ, List.zip_cons_cons, ih, List.map_cons]

theorem updateCode_classifies (u : Update) (self : UInt16) (ports : List UInt16) (m : Mem) :
    Classifies u self ports m (updateCode ((m.coms self).versionNum != u.id)
      ((peers self ports).any fun p => !decide (m.AtId u p))
      ((peers self ports).any fun p => decide (m.AtId u p))) := by
  have own : ((m.coms self).versionNum != u.id) = !decide (m.AtId u self) := by
    rw [bne, beq_eq_decide]
    exact congrArg not (decide_eq_decide.mpr Iff.rfl)
  have fresh : ((peers self ports).any fun p => decide (m.AtId u p)) = true ↔
      ∃ p ∈ peers self ports, m.AtId u p := by
    simp
  have stale : ((peers self ports).any fun p => !decide (m.AtId u p)) = true ↔
      ∃ p ∈ peers self ports, ¬ m.AtId u p := by
    simp
  have allFresh : (∀ p ∈ peers self ports, m.AtId u p) ↔ ¬ ∃ p ∈ peers self ports, ¬ m.AtId u p := by
    simp
  have noneFresh : (∀ p ∈ peers self ports, ¬ m.AtId u p) ↔ ¬ ∃ p ∈ peers self ports, m.AtId u p := by
    simp
  rw [own]
  generalize ((peers self ports).any fun p => decide (m.AtId u p)) = someFresh at fresh ⊢
  generalize ((peers self ports).any fun p => !decide (m.AtId u p)) = someStale at stale ⊢
  constructor
  · rw [allFresh, ← stale]
    by_cases atId : m.AtId u self <;> cases someFresh <;> cases someStale <;> simp [updateCode, atId]
  · rw [← stale]
    by_cases atId : m.AtId u self <;> cases someFresh <;> cases someStale <;> simp [updateCode, atId]
  · rw [← fresh]
    by_cases atId : m.AtId u self <;> cases someFresh <;> cases someStale <;> simp [updateCode, atId]
  · rw [noneFresh, ← fresh]
    by_cases atId : m.AtId u self <;> cases someFresh <;> cases someStale <;> simp [updateCode, atId]
  · by_cases atId : m.AtId u self <;> cases someFresh <;> cases someStale <;> simp [updateCode, atId]

/-- A call of a server on the update to all others, none of which fails, returns the code that
tells which of them were at the id, and brings every server to it. -/
theorem updateHosts_converges (u : Update) (clean : u.Clean) (fits : u.Fits) (self : UInt16)
    (fail : Int8) (ports : List UInt16) (distinct : ports.Nodup) (few : ports.length ≤ 255) (m : Mem)
    (started : fail ≠ -1) (fair : ∀ i : Nat, ∀ port ∈ ports[i]?, (i : Int) = fail.toInt → port = self) :
    ∃ code m₁ n, Runs contacts (updateHosts self u.remove u.domain u.ip self u.id fail)
        (m, announce ports (ports.length + 1) (List.replicate (peers self ports).length (.served true)))
        code (m₁, n) ∧
      Classifies u self ports m code ∧
      ∀ p, p = self ∨ p ∈ ports → Converged u (m.coms p) (m₁.coms p) := by
  have contacted : targets self fail 0 ports = peers self ports :=
    targets_eq_peers fail ports 0 fun i port at_ named => fair i port at_ (by omega)
  have carried := u.carried_of_clean clean fits
  obtain ⟨n, ran⟩ := updateHosts_runs u carried self self fail ports (ports.length + 1)
    (List.replicate (peers self ports).length (.served true)) m few (by rw [contacted, List.length_replicate])
  obtain ⟨m₂, all⟩ := contactAll_flags u (distinct.filter (· ≠ self)) false false m
  simp only [Bool.false_or] at all
  have listed : ¬ ports.length + 1 < ports.length := by omega
  have result : updateAll u self self fail ports (ports.length + 1)
      (List.replicate (peers self ports).length (.served true)) m =
      (updateCode ((m.coms self).versionNum != u.id)
        ((peers self ports).any fun p => !decide (m.AtId u p))
        ((peers self ports).any fun p => decide (m.AtId u p)),
      if (m.coms self).versionNum != u.id then m₂.setComs self ((m₂.coms self).actuallyUpdate u) else m₂) := by
    rw [updateAll, if_neg started, if_neg listed, contacted, zip_replicate]
    unfold peers
    rw [all]
  rw [result] at ran
  refine ⟨_, _, n, ran, updateCode_classifies u self ports m, ?_⟩
  intro p member
  by_cases atId : (m.coms p).versionNum = u.id
  · rw [atId_kept u self all atId]
    exact converged_same u atId
  · have applied := applied_iff u self all p
    refine converged_applied u atId (applied.mpr (.inr ⟨atId, ?_⟩))
    by_cases own : p = self
    · exact .inl own
    · have peer : p ∈ peers self ports := List.mem_filter.mpr ⟨member.resolve_left own, by simpa using own⟩
      exact .inr ⟨true, List.mem_map.mpr ⟨p, peer, rfl⟩⟩

theorem updateHosts_converges_two :
    ∃ code m₁ n, Runs contacts (updateHosts 1 false (addNewDomain 1).domain (addNewDomain 1).ip 1 1 0)
        (startMem .roundRobin, announce [1, 2] 3 [.served true]) code (m₁, n) ∧
      Classifies (addNewDomain 1) 1 [1, 2] (startMem .roundRobin) code ∧
      ∀ p, p = 1 ∨ p ∈ [1, 2] →
        Converged (addNewDomain 1) ((startMem .roundRobin).coms p) (m₁.coms p) := by
  have fair : ∀ i : Nat, ∀ port ∈ ([1, 2] : List UInt16)[i]?, (i : Int) = (0 : Int8).toInt → port = 1 := by
    intro i port at_ first
    have zero : i = 0 := by simpa using first
    subst zero
    exact (Option.some.inj at_).symm
  exact updateHosts_converges (addNewDomain 1) (addNewDomain_clean 1) (addNewDomain_fits 1) 1 0 [1, 2]
    (by decide) (by decide) (startMem .roundRobin) (by decide) fair

/-- The fail index that stops the call before its first contact names no server either. -/
theorem updateHosts_stops :
    (∀ i : Nat, ∀ port ∈ ([1, 2] : List UInt16)[i]?, (i : Int) = (-1 : Int8).toInt → port = 1) ∧
    ∃ m₁ n, Runs contacts (updateHosts 1 false (addNewDomain 1).domain (addNewDomain 1).ip 1 1 (-1))
        (startMem .roundRobin, announce [1, 2] 3 [.served true]) 3 (m₁, n) ∧
      ¬ Classifies (addNewDomain 1) 1 [1, 2] (startMem .roundRobin) 3 ∧
      ¬ Converged (addNewDomain 1) ((startMem .roundRobin).coms 2) (m₁.coms 2) := by
  constructor
  · intro i port _ named
    exact absurd (named.trans (by decide : (-1 : Int8).toInt = -1)) (by omega)
  obtain ⟨n, ran⟩ := updateHosts_runs (addNewDomain 1) (addNewDomain_carried 1) 1 1 (-1) [1, 2]
    3 [.served true] (startMem .roundRobin) (by decide) (by decide)
  refine ⟨_, n, ran, ?_, ?_⟩
  · intro classified
    have away : ∀ p, ¬ (startMem .roundRobin).AtId (addNewDomain 1) p := fun p =>
      show (0 : UInt8) ≠ 1 by decide
    have code := classified.noneFresh.mpr ⟨away 1, fun p _ => away p⟩
    exact absurd code (by decide)
  · intro converged
    have version := converged.versionNum
    exact absurd version (by decide)

end DnsServer
