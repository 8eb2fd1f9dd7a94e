import DnsServer.Cluster.Brought
import DnsServer.Cluster.Codes
import DnsServer.Replication.Commands

/-! Updates that are tried again, with the same id, until a call of them does not fail. -/
namespace DnsServer
open Process Program Relation Replication

/-- The update as a command to the replicated table. -/
def Update.command (u : Update) : Command UInt8 Table := ⟨u.id, u.apply, u.apply_apply⟩

def Coms.replica (c : Coms) : Replica UInt8 Table := ⟨c.versionNum, c.table⟩

def Mem.replicas (m : Mem) (p : UInt16) : Replica UInt8 Table := (m.coms p).replica

/-- A call of `update_hosts` of which any contact may fail. -/
structure Trial where
  self : UInt16
  ownPort : UInt16
  fail : Int8
  ports : List UInt16
  acks : Nat
  fates : List Fate
  few : ports.length ≤ 255
  enough : (targets ownPort fail 0 ports).length ≤ fates.length

def Update.call (u : Update) (self ownPort : UInt16) (fail : Int8) : Proc UInt8 :=
  updateHosts self u.remove u.domain u.ip ownPort u.id fail

/-- How things stand between two calls. `held` says whether the router's thread is still in the session of an earlier
one. -/
structure Standing where
  mem : Mem
  held : Bool

/-- The call ends with this code. -/
def Trial.Made (a : Trial) (u : Update) (s : Standing) (code : UInt8) (s₁ : Standing) : Prop :=
  ∃ n, Runs contacts (u.call a.self a.ownPort a.fail)
    (s.mem, { announce a.ports a.acks a.fates with held := s.held }) code (s₁.mem, n) ∧ n.held = s₁.held

/-- The call, which ends with this code, leaves the router's thread in its session. -/
def Trial.Holds (a : Trial) (code : UInt8) : Prop := updateHolds a.fail code a.acks a.ports.length = true

/-- Calls that have been made one after another, with their codes. -/
inductive Attempts (u : Update) (s : Standing) : List (Trial × UInt8) → Standing → Prop where
  | start : Attempts u s [] s
  | next : Attempts u s made s₁ → a.Made u s₁ code s₂ → Attempts u s (made ++ [(a, code)]) s₂

/-- Some server has tried to make the update, whatever came of it. -/
def Tried (u : Update) (m m₁ : Mem) : Prop :=
  ∃ (a : Trial) (code : UInt8) (held held₁ : Bool), a.Made u ⟨m, held⟩ code ⟨m₁, held₁⟩

/-- The call ends, all of its contacts being served, and the router's thread has come out of its session. -/
def Served (call : Proc UInt8) (ports : List UInt16) (m : Mem) (code : UInt8) (m₁ : Mem) : Prop :=
  ∃ n, Runs contacts call (m, announce ports (ports.length + 1) (List.replicate ports.length (.served true)))
    code (m₁, n) ∧ n.held = false

theorem zip_replicate_of_le {ports : List UInt16} (enough : ports.length ≤ k) (fate : Fate) :
    ports.zip (List.replicate k fate) = ports.map fun p => (p, fate) := by
  induction ports generalizing k with
  | nil => rfl
  | cons port ports ih =>
    cases k with
    | zero => cases enough
    | succ k => rw [List.replicate_succ, List.zip_cons_cons, List.map_cons, ih (Nat.le_of_succ_le_succ enough)]

theorem replica_actuallyUpdate (u : Update) {c : Coms} (stale : c.versionNum ≠ u.id) :
    (c.actuallyUpdate u).replica = u.command.take c.replica := by
  rw [take_stale stale, Coms.replica, actuallyUpdate_table]
  rfl

/-- Made to a server that has had it since it was stale, the update changes nothing. -/
theorem replica_again (u : Update) {c c₁ : Coms} (stale : c.versionNum ≠ u.id)
    (reached : c₁.replica = c.replica ∨ c₁.replica = u.command.take c.replica) :
    (c₁.actuallyUpdate u).replica = u.command.take c.replica := by
  rw [take_stale stale, Coms.replica, actuallyUpdate_table]
  rw [take_stale stale] at reached
  rcases reached with same | taken
  · have table : c₁.table = c.table := congrArg Replica.state same
    rw [table]
    rfl
  · have table : c₁.table = u.apply c.table := congrArg Replica.state taken
    rw [table, u.apply_apply]
    rfl

theorem deliver_replica (u : Update) (c : Coms) (fate : Fate) :
    (fate.deliver u c).replica = c.replica ∨ (fate.deliver u c).replica = u.command.take c.replica := by
  by_cases served : ∃ last, fate = .served last
  · obtain ⟨last, rfl⟩ := served
    by_cases fresh : c.versionNum = u.id
    · exact .inl (congrArg Coms.replica (if_pos fresh))
    · right
      rw [← replica_actuallyUpdate u fresh]
      exact congrArg Coms.replica (if_neg fresh)
  · left
    rw [deliver_not_served u c fun last same => served ⟨last, same⟩]

theorem setComs_reaches (u : Update) (m : Mem) (q : UInt16) {c : Coms}
    (reached : c.replica = (m.coms q).replica ∨ c.replica = u.command.take (m.coms q).replica) :
    u.command.Reaches m.replicas (m.setComs q c).replicas := by
  intro p
  unfold Mem.replicas
  by_cases here : p = q
  · subst here
    rw [setComs_same]
    exact reached
  · rw [setComs_other m here]
    exact .inl rfl

theorem contactAll_reaches (u : Update) (made : List (UInt16 × Fate)) (someStale someFresh : Bool) (m : Mem) :
    u.command.Reaches m.replicas (contactAll u made someStale someFresh m).2.replicas := by
  induction made generalizing someStale someFresh m with
  | nil => exact .refl _ _
  | cons contact made ih =>
    obtain ⟨q, fate⟩ := contact
    have first := setComs_reaches u m q (deliver_replica u (m.coms q) fate)
    simp only [contactAll]
    split
    · exact first
    · exact first.trans (ih _ _ _)
    · exact first.trans (ih _ _ _)

/-- The initiator's own update, after its contacts. -/
theorem own_reaches (u : Update) {m m₁ : Mem} (contacted : u.command.Reaches m.replicas m₁.replicas)
    (stale : (m.coms self).versionNum ≠ u.id) :
    u.command.Reaches m.replicas (m₁.setComs self ((m₁.coms self).actuallyUpdate u)).replicas ∧
      (m₁.setComs self ((m₁.coms self).actuallyUpdate u)).replicas self = u.command.take (m.replicas self) := by
  have own : (m₁.setComs self ((m₁.coms self).actuallyUpdate u)).replicas self =
      u.command.take (m.replicas self) := by
    rw [Mem.replicas, setComs_same]
    exact replica_again u stale (contacted self)
  refine ⟨fun p => ?_, own⟩
  by_cases here : p = self
  · subst here
    exact .inr own
  · rw [Mem.replicas, setComs_other m₁ here]
    exact contacted p

/-- While the router's thread is in an earlier session, only a call that does nothing ends. -/
theorem Trial.made_held {a : Trial} (made : a.Made u ⟨m, true⟩ code s) : a.fail = -1 ∧ s = ⟨m, true⟩ := by
  obtain ⟨n, ran, held⟩ := made
  by_cases stopped : a.fail = -1
  · unfold Update.call updateHosts at ran
    rw [if_pos stopped] at ran
    obtain ⟨_, same⟩ := runs_ret_iff.mp ran
    obtain ⟨tables, rfl⟩ := Prod.mk.inj same
    obtain ⟨m₁, held₁⟩ := s
    cases tables
    cases held
    exact ⟨stopped, rfl⟩
  · exact absurd ran (updateHosts_waits rfl rfl stopped)

/-- A call that finds the router free: its code, the tables after it, and whether the router is. -/
theorem Trial.made_free {a : Trial} (carried : u.Carried) (made : a.Made u ⟨m, false⟩ code s) :
    (code, s.mem) = updateAll u a.self a.ownPort a.fail a.ports a.acks a.fates m ∧ (s.held = true ↔ a.Holds code) := by
  obtain ⟨n, ran, held⟩ := made
  obtain ⟨n₁, computed, session⟩ :=
    updateHosts_session u carried a.self a.ownPort a.fail a.ports a.acks a.fates m a.few a.enough
  obtain ⟨rfl, same⟩ := ran.unique computed
  obtain ⟨tables, rfl⟩ := Prod.mk.inj same
  exact ⟨Prod.ext rfl tables, by rw [← held, session, Trial.Holds]⟩

/-- However a call ends, no server has the update made to it twice, or in part. -/
theorem Trial.reaches {a : Trial} (carried : u.Carried) (made : a.Made u ⟨m, held⟩ code ⟨m₁, held₁⟩) :
    u.command.Reaches m.replicas m₁.replicas := by
  cases held with
  | true =>
    obtain ⟨_, same⟩ := a.made_held made
    cases same
    exact .refl _ _
  | false =>
  obtain ⟨computed, _⟩ := a.made_free carried made
  have tables : m₁ = (updateAll u a.self a.ownPort a.fail a.ports a.acks a.fates m).2 := congrArg Prod.snd computed
  rw [tables]
  unfold updateAll
  split
  · exact .refl _ _
  split
  · exact .refl _ _
  have contacted := contactAll_reaches u ((targets a.ownPort a.fail 0 a.ports).zip a.fates) false false m
  cases result : contactAll u ((targets a.ownPort a.fail 0 a.ports).zip a.fates) false false m with
  | mk flags m₂ =>
  rw [result] at contacted
  cases flags with
  | none => exact contacted
  | some flags =>
    change u.command.Reaches m.replicas (if (m.coms a.self).versionNum != u.id
      then m₂.setComs a.self ((m₂.coms a.self).actuallyUpdate u) else m₂).replicas
    split
    · next stale => exact (own_reaches u contacted (by simpa using stale)).1
    · exact contacted

theorem tried_reaches (carried : u.Carried) (tried : ReflTransGen (Tried u) m m₁) :
    u.command.Reaches m.replicas m₁.replicas := by
  refine reaches_of_attempts (fun m m₁ step => ?_) tried
  obtain ⟨a, code, held, held₁, made⟩ := step
  exact a.reaches carried made

theorem Attempts.tried (attempts : Attempts u s made s₁) : ReflTransGen (Tried u) s.mem s₁.mem := by
  induction attempts with
  | start => exact .refl
  | next _ call ih => exact ih.tail ⟨_, _, _, _, call⟩

/-- The router is free until one of the calls leaves its thread in the session. -/
theorem Attempts.held_iff (carried : u.Carried) (attempts : Attempts u ⟨m, false⟩ made s) :
    s.held = true ↔ ∃ p ∈ made, p.1.Holds p.2 := by
  induction attempts with
  | start => exact iff_of_false Bool.false_ne_true fun ⟨_, member, _⟩ => List.not_mem_nil member
  | @next made s₁ a code s₂ _ call ih =>
    have last : (∃ p ∈ made ++ [(a, code)], p.1.Holds p.2) ↔ s₁.held = true ∨ a.Holds code := by
      rw [ih]
      simp only [List.mem_append, List.mem_singleton, or_and_right, exists_or, exists_eq_left]
    rw [last]
    obtain ⟨m₁, held⟩ := s₁
    cases held with
    | true =>
      obtain ⟨_, rfl⟩ := a.made_held call
      exact iff_of_true rfl (.inl rfl)
    | false => exact (a.made_free carried call).2.trans (or_iff_right Bool.false_ne_true).symm

/-- The contacts of a call, when all are served. -/
theorem contactAll_taken (u : Update) {ports : List UInt16} (distinct : ports.Nodup) (m : Mem) :
    ∃ m₂, contactAll u (ports.map fun p => (p, Fate.served true)) false false m =
        (some (ports.any fun p => !decide (m.AtId u p), ports.any fun p => decide (m.AtId u p)), m₂) ∧
      u.command.Reaches m.replicas m₂.replicas ∧
      (∀ p ∈ ports, m₂.replicas p = u.command.take (m.replicas p)) ∧ ∀ p, p ∉ ports → m₂.coms p = m.coms p := by
  obtain ⟨m₂, all⟩ := contactAll_flags u distinct false false m
  simp only [Bool.false_or] at all
  have contacted := contactAll_reaches u (ports.map fun p => (p, Fate.served true)) false false m
  rw [all] at contacted
  refine ⟨m₂, all, contacted, ?_, ?_⟩
  · intro p member
    by_cases fresh : (m.coms p).versionNum = u.id
    · have kept := contactAll_at u (ports.map fun p => (p, Fate.served true)) false false m fresh
      rw [all] at kept
      rw [take_fresh (show (m.replicas p).version = u.command.version from fresh), Mem.replicas, kept]
      rfl
    · have updated := contactAll_served u fresh all ⟨true, List.mem_map.mpr ⟨p, member, rfl⟩⟩
      rw [Mem.replicas, updated]
      exact replica_actuallyUpdate u fresh
  · intro p absent
    have unserved : ¬ Serves (ports.map fun p => (p, Fate.served true)) p := by
      rintro ⟨last, member⟩
      obtain ⟨q, listed, same⟩ := List.mem_map.mp member
      cases same
      exact absent listed
    have kept := contactAll_missed u false false m unserved
    rwa [all] at kept

/-- A call whose contacts are all served: its code, and whom it brings the update. -/
theorem served_runs (u : Update) (carried : u.Carried) (self ownPort : UInt16) (fail : Int8) (ports : List UInt16)
    (distinct : ports.Nodup) (few : ports.length ≤ 255) (started : fail ≠ -1) (m : Mem) :
    ∃ m₁, Served (u.call self ownPort fail) ports m (updateCode ((m.coms self).versionNum != u.id)
        ((targets ownPort fail 0 ports).any fun p => !decide (m.AtId u p))
        ((targets ownPort fail 0 ports).any fun p => decide (m.AtId u p))) m₁ ∧
      u.command.Completes {p | p = self ∨ p ∈ targets ownPort fail 0 ports} m.replicas m₁.replicas ∧
      ∀ p, p ≠ self → p ∉ targets ownPort fail 0 ports → m₁.coms p = m.coms p := by
  have sublist := targets_sublist ownPort fail 0 ports
  obtain ⟨n, ran, session⟩ := updateHosts_session u carried self ownPort fail ports (ports.length + 1)
    (List.replicate ports.length (.served true)) m few (by rw [List.length_replicate]; exact sublist.length_le)
  obtain ⟨m₂, all, contacted, taken, missed⟩ := contactAll_taken u (distinct.sublist sublist) m
  have result : updateAll u self ownPort fail ports (ports.length + 1)
      (List.replicate ports.length (.served true)) m =
      (updateCode ((m.coms self).versionNum != u.id)
        ((targets ownPort fail 0 ports).any fun p => !decide (m.AtId u p))
        ((targets ownPort fail 0 ports).any fun p => decide (m.AtId u p)),
      if (m.coms self).versionNum != u.id then m₂.setComs self ((m₂.coms self).actuallyUpdate u) else m₂) := by
    rw [updateAll, if_neg started, if_neg (by omega), zip_replicate_of_le sublist.length_le, all]
  rw [result] at ran session
  have free : n.held = false := by
    rw [session, updateHolds, beq_eq_false_iff_ne.mpr (updateCode_ne_one _ _ _), Bool.false_or,
      decide_eq_false (by omega), Bool.and_false]
  refine ⟨_, ⟨n, ran, free⟩, ?_⟩
  by_cases stale : (m.coms self).versionNum = u.id
  · rw [if_neg (by simpa using stale)]
    refine ⟨⟨contacted, ?_⟩, fun p _ absent => missed p absent⟩
    rintro p (rfl | member)
    · rcases contacted p with same | again
      · rw [same, take_fresh (show (m.replicas p).version = u.command.version from stale)]
      · exact again
    · exact taken p member
  · rw [if_pos (by simpa using stale)]
    obtain ⟨reaches, own⟩ := own_reaches u contacted stale
    refine ⟨⟨reaches, ?_⟩, ?_⟩
    · rintro p (rfl | member)
      · exact own
      · by_cases here : p = self
        · rw [here, own]
        · rw [Mem.replicas, setComs_other m₂ here]
          exact taken p member
    · intro p other absent
      rw [setComs_other m₂ other]
      exact missed p absent

theorem converged_of_taken (u : Update) {before after : Coms}
    (taken : after.replica = u.command.take before.replica) : Converged u before after := by
  by_cases fresh : before.versionNum = u.id
  · rw [take_fresh (show before.replica.version = u.command.version from fresh)] at taken
    have version : after.versionNum = before.versionNum := congrArg Replica.version taken
    have table : after.table = before.table := congrArg Replica.state taken
    refine ⟨version.trans fresh, fun _ => table, fun stale => absurd fresh stale, fun d _ => ?_⟩
    rw [table]
  · rw [take_stale fresh] at taken
    exact converged_applied u fresh ⟨congrArg Replica.version taken, congrArg Replica.state taken⟩

/-- Whatever became of the calls before, after the last one every server has the update once, and its code tells
which of them had it already. -/
structure Recovered (u : Update) (self : UInt16) (ports : List UInt16) (start tried done : Mem) (code : UInt8) :
    Prop where
  converged : ∀ p, p = self ∨ p ∈ ports → Converged u (start.coms p) (done.coms p)
  others : ∀ p, p ≠ self → p ∉ ports → done.coms p = tried.coms p
  classified : Classifies u self ports tried code
  reached : ∀ p, ¬ start.AtId u p → (tried.AtId u p ↔ Applied u (start.coms p) (tried.coms p))
  unreached : ∀ p, ¬ tried.AtId u p → (tried.coms p).replica = (start.coms p).replica

/-- One more call, that is served by all, ends, brings the update to the servers that have missed it, and tells which
had not. -/
theorem served_recovers (u : Update) (carried : u.Carried) (self : UInt16) (fail : Int8) (ports : List UInt16)
    (distinct : ports.Nodup) (few : ports.length ≤ 255) (started : fail ≠ -1)
    (fair : ∀ i : Nat, ∀ port ∈ ports[i]?, (i : Int) = fail.toInt → port = self)
    (tried : ReflTransGen (Tried u) m m₁) :
    ∃ code m₂, Served (u.call self self fail) ports m₁ code m₂ ∧ Recovered u self ports m m₁ m₂ code := by
  have contacted : targets self fail 0 ports = peers self ports :=
    targets_eq_peers fail ports 0 fun i port at_ named => fair i port at_ (by omega)
  obtain ⟨m₂, served, last, others⟩ := served_runs u carried self self fail ports distinct few started m₁
  rw [contacted] at served last others
  have first := tried_reaches carried tried
  have whole := first.completes last
  have listed : ∀ p, p ∈ peers self ports ↔ p ∈ ports ∧ p ≠ self := by
    intro p
    simp [peers]
  refine ⟨_, m₂, served, ?_, ?_, updateCode_classifies u self ports m₁, ?_, ?_⟩
  · intro p member
    refine converged_of_taken u (whole.all p ?_)
    by_cases own : p = self
    · exact .inl own
    · exact .inr ((listed p).mpr ⟨member.resolve_left own, own⟩)
  · intro p other absent
    exact others p other fun member => absent ((listed p).mp member).1
  · intro p stale
    constructor
    · intro fresh
      rcases first p with same | taken
      · have version : (m₁.coms p).versionNum = (m.coms p).versionNum := congrArg Replica.version same
        exact absurd (version.symm.trans fresh) stale
      · have stale' : (m.replicas p).version ≠ u.command.version := stale
        rw [take_stale stale'] at taken
        exact ⟨fresh, congrArg Replica.state taken⟩
    · exact fun applied => applied.1
  · intro p stale
    rcases first p with same | taken
    · exact same
    · exact absurd ((congrArg Replica.version taken).trans (take_version u.command _)) stale

/-- After any calls for the update, by any servers and with any failures, one that is served by all recovers it, as long
as none of them has left the router's thread in its session; when one has, no call that begins ends any more. -/
theorem retried_update_recovers (u : Update) (clean : u.Clean) (fits : u.Fits) (self : UInt16) (fail : Int8)
    (ports : List UInt16) (distinct : ports.Nodup) (few : ports.length ≤ 255) (started : fail ≠ -1)
    (fair : ∀ i : Nat, ∀ port ∈ ports[i]?, (i : Int) = fail.toInt → port = self)
    (attempts : Attempts u ⟨m, false⟩ made s) :
    ((∀ p ∈ made, ¬ p.1.Holds p.2) → ∃ code m₂,
      Served (u.call self self fail) ports s.mem code m₂ ∧ Recovered u self ports m s.mem m₂ code) ∧
    ((∃ p ∈ made, p.1.Holds p.2) → ∀ (a : Trial) (v : Update) code s₁, a.fail ≠ -1 → ¬ a.Made v s code s₁) := by
  have carried := u.carried_of_clean clean fits
  constructor
  · intro _
    exact served_recovers u carried self fail ports distinct few started fair attempts.tried
  · intro holds a v code s₁ begins made₁
    have held := (attempts.held_iff carried).mpr holds
    obtain ⟨m₁, _⟩ := s
    cases held
    exact begins (a.made_held made₁).1

theorem Trial.made (a : Trial) (u : Update) (carried : u.Carried) (m : Mem) :
    let done := updateAll u a.self a.ownPort a.fail a.ports a.acks a.fates m
    a.Made u ⟨m, false⟩ done.1 ⟨done.2, updateHolds a.fail done.1 a.acks a.ports.length⟩ := by
  obtain ⟨n, ran, session⟩ :=
    updateHosts_session u carried a.self a.ownPort a.fail a.ports a.acks a.fates m a.few a.enough
  exact ⟨n, ran, session⟩

/-- The second peer never has the whole text. -/
def silentTrial : Trial := ⟨1, 1, 0, [1, 2, 3], 4, [.served true, .silent true], by decide, by decide⟩

/-- The receive of the second peer's version fails. -/
def refusedTrial : Trial := ⟨1, 1, 0, [1, 2, 3], 4, [.served true, .refused], by decide, by decide⟩

theorem silentTrial_made : ∃ m, Attempts (addNewDomain 1) ⟨startMem .roundRobin, false⟩ [(silentTrial, 0)] ⟨m, false⟩ ∧
    m.AtId (addNewDomain 1) 2 ∧ ¬ m.AtId (addNewDomain 1) 3 :=
  ⟨_, .next .start (silentTrial.made _ (addNewDomain_carried 1) (startMem .roundRobin)), rfl,
    show (0 : UInt8) ≠ 1 by decide⟩

theorem fair_zero (self : UInt16) (ports : List UInt16) :
    ∀ i : Nat, ∀ port ∈ (self :: ports)[i]?, (i : Int) = (0 : Int8).toInt → port = self := by
  intro i port at_ named
  have zero : i = 0 := by simpa using named
  subst zero
  exact (Option.some.inj at_).symm

/-- A call that the second peer gets nothing of is made good by another one; after a call that gives up at that peer,
there is none. -/
theorem retried_update_recovers_silent :
    (∃ m₁ code m₂, Attempts (addNewDomain 1) ⟨startMem .roundRobin, false⟩ [(silentTrial, 0)] ⟨m₁, false⟩ ∧
      m₁.AtId (addNewDomain 1) 2 ∧ ¬ m₁.AtId (addNewDomain 1) 3 ∧
      Served ((addNewDomain 1).call 1 1 0) [1, 2, 3] m₁ code m₂ ∧
      Recovered (addNewDomain 1) 1 [1, 2, 3] (startMem .roundRobin) m₁ m₂ code) ∧
    ∃ s, Attempts (addNewDomain 1) ⟨startMem .roundRobin, false⟩ [(refusedTrial, 1)] s ∧
      ∀ (a : Trial) (v : Update) code s₁, a.fail ≠ -1 → ¬ a.Made v s code s₁ := by
  have retried := fun {made s} => @retried_update_recovers (startMem .roundRobin) made s (addNewDomain 1)
    (addNewDomain_clean 1) (addNewDomain_fits 1) 1 0 [1, 2, 3] (by decide) (by decide) (by decide) (fair_zero 1 [2, 3])
  constructor
  · obtain ⟨m₁, attempts, second, third⟩ := silentTrial_made
    have free : ∀ p ∈ [(silentTrial, (0 : UInt8))], ¬ p.1.Holds p.2 := by
      rw [List.forall_mem_singleton]
      exact Bool.false_ne_true
    obtain ⟨code, m₂, served, recovered⟩ := (retried attempts).1 free
    exact ⟨m₁, code, m₂, attempts, second, third, served, recovered⟩
  · have attempts := Attempts.next .start (refusedTrial.made _ (addNewDomain_carried 1) (startMem .roundRobin))
    exact ⟨_, attempts, (retried attempts).2 ⟨_, List.mem_singleton_self _, rfl⟩⟩

/-! Updates that are made one after the other. -/

/-- Each of the updates is tried until a call of it is served by all, and none of its calls leaves the router's thread in
the session. -/
inductive Rollouts (ports : List UInt16) : List Update → Mem → Mem → Prop where
  | done : Rollouts ports [] m m
  | next {us : List Update} : u.Clean → u.Fits → Attempts u ⟨m, false⟩ made ⟨m₁, false⟩ → fail ≠ -1 →
      (∀ i : Nat, ∀ port ∈ ports[i]?, (i : Int) = fail.toInt → port = self) →
      Served (u.call self self fail) ports m₁ code m₂ → Rollouts ports us m₂ m₃ → Rollouts ports (u :: us) m m₃

/-- The last update of a domain decides what it is translated to. -/
def lastEntry (us : List Update) (t : Table) (d : Bytes) : Option Bytes :=
  ((us.reverse.find? fun u => u.domain = d).map Update.entry).getD (t.lookup d)

theorem lookup_updates (us : List Update) (t : Table) (d : Bytes) :
    (us.foldl (fun t u => u.apply t) t).lookup d = lastEntry us t d := by
  induction us using List.reverseRecOn with
  | nil => rfl
  | append_singleton us u ih =>
    rw [List.foldl_append, List.foldl_cons, List.foldl_nil, lookup_apply, ih, lastEntry, lastEntry,
      List.reverse_concat]
    by_cases same : u.domain = d
    · rw [if_pos same.symm, List.find?_cons_of_pos (by simpa using same)]
      rfl
    · rw [if_neg (Ne.symm same), List.find?_cons_of_neg (by simpa using same)]

/-- A call that is served by all can end in one way only. -/
theorem Served.unique {p : Proc UInt8} (served : Served p ports m code m₁) (served₁ : Served p ports m code₁ m₂) :
    code = code₁ ∧ m₁ = m₂ := by
  obtain ⟨n, ran, _⟩ := served
  obtain ⟨n₁, ran₁, _⟩ := served₁
  obtain ⟨same, ends⟩ := ran.unique ran₁
  exact ⟨same, congrArg Prod.fst ends⟩

theorem served_completes (u : Update) (carried : u.Carried) (distinct : ports.Nodup) (few : ports.length ≤ 255)
    (started : fail ≠ -1) (served : Served (u.call self ownPort fail) ports m code m₁) :
    u.command.Completes {p | p = self ∨ p ∈ targets ownPort fail 0 ports} m.replicas m₁.replicas := by
  obtain ⟨m₂, served₁, completes, _⟩ := served_runs u carried self ownPort fail ports distinct few started m
  obtain ⟨_, rfl⟩ := served.unique served₁
  exact completes

theorem rollouts_logged (distinct : ports.Nodup) (few : ports.length ≤ 255) (rollouts : Rollouts ports us m m₁) :
    Logged {p | p ∈ ports} (us.map Update.command) m.replicas m₁.replicas := by
  induction rollouts with
  | done => exact .nil
  | @next u m made m₁ fail self code m₂ m₃ us clean fits attempts started fair served _ ih =>
    have carried := u.carried_of_clean clean fits
    have first := tried_reaches carried attempts.tried
    have last := first.completes (served_completes u carried distinct few started served)
    rw [targets_eq_peers fail ports 0 fun i port at_ named => fair i port at_ (by omega)] at last
    refine .cons ⟨last.reaches, fun p member => last.all p ?_⟩ ih
    by_cases own : p = self
    · exact .inl own
    · exact .inr (List.mem_filter.mpr ⟨member, by simpa using own⟩)

/-- A server that is announced all along translates each name as its last update says, whatever failed on the way, as
long as no update has the id of the one before it, nor the first one the version that the server is at. -/
theorem rollouts_last_entry (distinct : ports.Nodup) (few : ports.length ≤ 255) (rollouts : Rollouts ports us m m₁)
    (member : p ∈ ports) (numbered : ((m.coms p).versionNum :: us.map (·.id)).IsChain (· ≠ ·)) :
    (m₁.coms p).versionNum = (us.getLast?.map (·.id)).getD (m.coms p).versionNum ∧
      ∀ d, (m₁.coms p).table.lookup d = lastEntry us (m.coms p).table d := by
  have numbered' : Numbered (m.replicas p).version (us.map Update.command) := by
    rw [Numbered, List.map_map]
    exact numbered
  obtain ⟨state, last⟩ := (rollouts_logged distinct few rollouts).state member numbered'
  constructor
  · have ends : (m₁.coms p).versionNum = _ := last
    rw [ends, List.getLast?_map, Option.map_map]
    rfl
  · intro d
    have table : (m₁.coms p).table = playAll (us.map Update.command) (m.coms p).table := state
    rw [table, playAll, List.foldl_map, ← lookup_updates]
    rfl

/-- `new_domain` is added twice; the first time the third server gets nothing of it at first. -/
theorem rollouts_last_entry_twice : ∃ m₁ m₂,
    Attempts (addNewDomain 1) ⟨startMem .roundRobin, false⟩ [(silentTrial, 0)] ⟨m₁, false⟩ ∧
    ¬ m₁.AtId (addNewDomain 1) 3 ∧
    Rollouts [1, 2, 3] [addNewDomain 1, addNewDomain 2] (startMem .roundRobin) m₂ ∧
    (m₂.coms 3).versionNum = 2 ∧
    ∀ d, (m₂.coms 3).table.lookup d =
      lastEntry [addNewDomain 1, addNewDomain 2] ((startMem .roundRobin).coms 3).table d := by
  obtain ⟨m₁, attempts, _, missed⟩ := silentTrial_made
  have fair := fair_zero 1 [2, 3]
  obtain ⟨m₂, served, _⟩ :=
    served_runs (addNewDomain 1) (addNewDomain_carried 1) 1 1 0 [1, 2, 3] (by decide) (by decide) (by decide) m₁
  obtain ⟨m₃, served₁, _⟩ :=
    served_runs (addNewDomain 2) (addNewDomain_carried 2) 1 1 0 [1, 2, 3] (by decide) (by decide) (by decide) m₂
  have rollouts : Rollouts [1, 2, 3] [addNewDomain 1, addNewDomain 2] (startMem .roundRobin) m₃ :=
    .next (addNewDomain_clean 1) (addNewDomain_fits 1) attempts (by decide) fair served
      (.next (addNewDomain_clean 2) (addNewDomain_fits 2) .start (by decide) fair served₁ .done)
  exact ⟨m₁, m₃, attempts, missed, rollouts, rollouts_last_entry (by decide) (by decide) rollouts (by decide)
    (show ([0, 1, 2] : List UInt8).IsChain (· ≠ ·) by decide)⟩

end DnsServer
