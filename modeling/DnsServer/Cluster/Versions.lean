import DnsServer.Cluster.Brought
import DnsServer.Cluster.Joining
import DnsServer.Router.Forwarding

/-! Runs of updates, joins and removals, and what equal versions say of the tables. -/
namespace DnsServer
open Process Program

/-- The TCP ports of the servers in rotation. -/
def Mem.ports (m : Mem) : List UInt16 := m.router.ports

inductive ClusterEvent where
  | update (u : Update) (self ownPort : UInt16) (fail : Int8) (acks : Nat) (fates : List Fate)
  | join (x : Server)
  | remove (dnsId : UInt8)

/-- One whole call: the router announces its rotation, and adds a server that joined. -/
inductive ClusterStep (m : Mem) : ClusterEvent → Mem → Prop where
  | update : self ∈ m.ports → (targets ownPort fail 0 m.ports).length ≤ fates.length →
      Runs contacts (updateHosts self u.remove u.domain u.ip ownPort u.id fail)
        (m, announce m.ports acks fates) code (m₁, n) →
      ClusterStep m (.update u self ownPort fail acks fates) m₁
  | join : x.tcpPortNum ∉ m.ports →
      Runs joining (updateAndOnline x) (m, announceTo m.ports) 0 (m₁, n) →
      Runs (alone 0) (addDnsServer x) m₁ code m₂ → ClusterStep m (.join x) m₂
  | failedJoin : x.tcpPortNum ∉ m.ports →
      Runs joining (updateAndOnline x) (m, announceTo m.ports) code (m₁, n) → code ≠ 0 →
      ClusterStep m (.join x) m₁
  | remove : Runs (alone 0) (removeServer dnsId) m code m₁ → ClusterStep m (.remove dnsId) m₁

/-- Servers in rotation at one version hold one table. -/
def VersionsAgree (m : Mem) : Prop :=
  ∀ p ∈ m.ports, ∀ q ∈ m.ports, (m.coms p).versionNum = (m.coms q).versionNum →
    (m.coms p).table = (m.coms q).table

/-- Servers that a call brings to the update's id agree beside its domain with each other and
with those already there, which have the update in effect. -/
def BroughtAgree (u : Update) (self ownPort : UInt16) (fail : Int8) (acks : Nat) (fates : List Fate)
    (m : Mem) : Prop :=
  ∀ p ∈ m.ports, ∀ q ∈ m.ports, Brought u self ownPort fail acks fates m m.ports p →
    (Brought u self ownPort fail acks fates m m.ports q →
      AgreeBeside u.domain (m.coms p).table (m.coms q).table) ∧
    (¬ Brought u self ownPort fail acks fates m m.ports q → (m.coms q).versionNum = u.id →
      AgreeBeside u.domain (m.coms p).table (m.coms q).table ∧
        (m.coms q).table.lookup u.domain = u.entry)

/-- A joiner copies the first server in rotation. -/
def ClusterEvent.Meets (m : Mem) : ClusterEvent → Prop
  | .update u self ownPort fail acks fates =>
    u.Carried ∧ BroughtAgree u self ownPort fail acks fates m
  | .join _ => ∀ p ∈ m.ports.head?, Sendable (m.coms p).ipHash.entries
  | .remove _ => True

/-- A run whose steps all meet the condition. -/
inductive MeetingRun (start : Mem) : Mem → Prop where
  | start : MeetingRun start start
  | step : MeetingRun start m → e.Meets m → ClusterStep m e m₁ → MeetingRun start m₁

/-- The array has one element for each server in rotation and no two have one port. -/
structure Formed (m : Mem) : Prop where
  sized : m.router.Sized
  distinct : m.ports.Nodup

section
variable {m m₁ : Mem}

theorem Formed.few (formed : Formed m) : m.ports.length ≤ 255 := by
  rw [Mem.ports, Router.ports, List.length_map, formed.sized.covered.length_rotation]
  exact Nat.le_of_lt_succ m.router.serverCnt.toNat_lt

theorem contactAll_router (u : Update) (listed : List (UInt16 × Fate)) (someStale someFresh : Bool)
    (m : Mem) : (contactAll u listed someStale someFresh m).2.router = m.router := by
  induction listed generalizing someStale someFresh m with
  | nil => rfl
  | cons c rest ih =>
    obtain ⟨q, fate⟩ := c
    simp only [contactAll]
    split
    · rfl
    · exact ih _ _ _
    · exact ih _ _ _

theorem updateAll_router (u : Update) (self ownPort : UInt16) (fail : Int8) (ports : List UInt16)
    (acks : Nat) (fates : List Fate) (m : Mem) :
    (updateAll u self ownPort fail ports acks fates m).2.router = m.router := by
  have contacted := contactAll_router u ((targets ownPort fail 0 ports).zip fates) false false m
  unfold updateAll
  split
  · rfl
  split
  · rfl
  split
  · next gaveUp =>
    rw [gaveUp] at contacted
    exact contacted
  · next finished =>
    rw [finished] at contacted
    dsimp only
    split
    · exact contacted
    · exact contacted

/-- Where versions tell the tables apart, they still do after a call exactly when the
servers it brings to the id agree. -/
theorem updateAll_agrees_iff (u : Update) (self ownPort : UInt16) (fail : Int8) (acks : Nat)
    (formed : Formed m) (enough : (targets ownPort fail 0 m.ports).length ≤ fates.length)
    (agree : VersionsAgree m) :
    VersionsAgree (updateAll u self ownPort fail m.ports acks fates m).2 ↔
      BroughtAgree u self ownPort fail acks fates m := by
  have becomes := updateAll_brought u self ownPort fail acks m formed.distinct enough
  have samePorts : (updateAll u self ownPort fail m.ports acks fates m).2.ports = m.ports := by
    unfold Mem.ports
    rw [updateAll_router]
  generalize (updateAll u self ownPort fail m.ports acks fates m).2 = m₁ at becomes samePorts
  unfold VersionsAgree BroughtAgree
  rw [samePorts]
  constructor
  · intro after p inP q inQ brought
    obtain ⟨reached, applied⟩ := (becomes p).1 brought
    have same := after p inP q inQ
    rw [reached, applied] at same
    constructor
    · intro also
      obtain ⟨reached', applied'⟩ := (becomes q).1 also
      rw [reached', applied'] at same
      exact (apply_eq_apply_iff u _ _).mp (same rfl)
    · intro not atId
      rw [(becomes q).2 not] at same
      exact (apply_eq_iff u _ _).mp (same atId.symm)
  · intro condition p inP q inQ versions
    by_cases broughtP : Brought u self ownPort fail acks fates m m.ports p
    · obtain ⟨reached, applied⟩ := (becomes p).1 broughtP
      by_cases broughtQ : Brought u self ownPort fail acks fates m m.ports q
      · rw [applied, ((becomes q).1 broughtQ).2]
        exact (apply_eq_apply_iff u _ _).mpr ((condition p inP q inQ broughtP).1 broughtQ)
      · rw [applied, (becomes q).2 broughtQ]
        rw [reached, (becomes q).2 broughtQ] at versions
        exact (apply_eq_iff u _ _).mpr ((condition p inP q inQ broughtP).2 broughtQ versions.symm)
    · rw [(becomes p).2 broughtP] at versions ⊢
      by_cases broughtQ : Brought u self ownPort fail acks fates m m.ports q
      · obtain ⟨reached, applied⟩ := (becomes q).1 broughtQ
        rw [applied]
        rw [reached] at versions
        exact ((apply_eq_iff u _ _).mpr ((condition q inQ p inP broughtQ).2 broughtP versions)).symm
      · rw [(becomes q).2 broughtQ] at versions ⊢
        exact agree p inP q inQ versions

/-- Agreement passes to a rotation whose servers are copies of those before. -/
theorem VersionsAgree.of_copies (agree : VersionsAgree m)
    (copies : ∀ p ∈ m₁.ports, ∃ q ∈ m.ports,
      (m₁.coms p).table = (m.coms q).table ∧ (m₁.coms p).versionNum = (m.coms q).versionNum) :
    VersionsAgree m₁ := by
  intro p inP q inQ versions
  obtain ⟨p', inP', tableP, versionP⟩ := copies p inP
  obtain ⟨q', inQ', tableQ, versionQ⟩ := copies q inQ
  rw [tableP, tableQ]
  exact agree p' inP' q' inQ' (versionP ▸ versionQ ▸ versions)

theorem addDnsServer_ports (sized : m.router.Sized)
    (ran : Runs (alone error) (addDnsServer dns) m code m₁) : m₁.ports = m.ports ++ [dns.tcpPortNum] := by
  obtain ⟨_, rotation, _⟩ := addDnsServer_spec sized ran
  rw [Mem.ports, Router.ports, rotation, List.map_append]
  rfl

/-- A joiner copies the first server in rotation, if there is one. -/
theorem join_ends (formed : Formed m) (outside : x.tcpPortNum ∉ m.ports)
    (source : ∀ p ∈ m.ports.head?, Sendable (m.coms p).ipHash.entries)
    (ran : Runs joining (updateAndOnline x) (m, announceTo m.ports) code (m₁, n)) :
    code = 1 ∧ m₁ = m ∨ code = 0 ∧ ∃ c, ∃ p ∈ m.ports, m₁ = m.setComs x.tcpPortNum c ∧
      c.table = (m.coms p).table ∧ c.versionNum = (m.coms p).versionNum := by
  have few := formed.few
  generalize m.ports = ports at outside source ran few
  cases ports with
  | nil =>
    obtain ⟨_, ends⟩ := updateAndOnline_alone x
    obtain ⟨rfl, same⟩ := ran.unique ends
    exact .inl ⟨rfl, (Prod.mk.inj same).1⟩
  | cons p ports =>
    have other : x.tcpPortNum ≠ p := fun same => outside (same ▸ List.mem_cons_self)
    obtain ⟨c, _, ends, table, version⟩ :=
      updateAndOnline_runs x p ports few other (source p rfl)
    obtain ⟨rfl, same⟩ := ran.unique ends
    exact .inr ⟨rfl, c, p, List.mem_cons_self, (Prod.mk.inj same).1, table, version⟩

theorem clusterStep_agrees (formed : Formed m) (agree : VersionsAgree m) (meets : e.Meets m)
    (moved : ClusterStep m e m₁) : Formed m₁ ∧ VersionsAgree m₁ := by
  cases moved with
  | update inside enough ran =>
    obtain ⟨carried, condition⟩ := meets
    obtain ⟨_, ends⟩ := updateHosts_runs _ carried _ _ _ _ _ _ _ formed.few enough
    obtain ⟨_, same⟩ := ran.unique ends
    obtain ⟨rfl, _⟩ := Prod.mk.inj same
    refine ⟨?_, (updateAll_agrees_iff _ _ _ _ _ formed enough agree).mpr condition⟩
    constructor
    · rw [updateAll_router]
      exact formed.sized
    · unfold Mem.ports
      rw [updateAll_router]
      exact formed.distinct
  | join outside ran added =>
    rename_i x _ _ _
    rcases join_ends formed outside meets ran with ⟨failed, _⟩ | ⟨_, c, p, inP, rfl, table, version⟩
    · exact absurd failed (by decide)
    · have sized : (m.setComs x.tcpPortNum c).router.Sized := formed.sized
      have ports := addDnsServer_ports sized added
      obtain ⟨sized₁, _, coms⟩ := addDnsServer_spec sized added
      refine ⟨⟨sized₁, ?_⟩, agree.of_copies ?_⟩
      · rw [ports]
        exact formed.distinct.append (List.nodup_singleton _) (by simpa using outside)
      · intro q inQ
        rw [ports] at inQ
        rw [coms]
        rcases List.mem_append.mp inQ with before | joined
        · refine ⟨q, before, ?_⟩
          rw [setComs_other m (p := x.tcpPortNum) fun same => outside (same ▸ before)]
          exact ⟨rfl, rfl⟩
        · obtain rfl := List.mem_singleton.mp joined
          refine ⟨p, inP, ?_⟩
          rw [setComs_same]
          exact ⟨table, version⟩
  | failedJoin outside ran failed =>
    rcases join_ends formed outside meets ran with ⟨_, rfl⟩ | ⟨succeeded, _⟩
    · exact ⟨formed, agree⟩
    · exact absurd succeeded failed
  | remove ran =>
    obtain ⟨sized, rotation, coms⟩ := removeServer_spec formed.sized ran
    have fewer : m₁.ports.Sublist m.ports := by
      rw [Mem.ports, Router.ports, rotation]
      exact List.eraseP_sublist.map _
    refine ⟨⟨sized, formed.distinct.sublist fewer⟩, agree.of_copies ?_⟩
    intro p inP
    refine ⟨p, fewer.subset inP, ?_⟩
    rw [coms]
    exact ⟨rfl, rfl⟩

/-- Servers that start with one hosts file at version 0 hold one table wherever they are at
one version, in every state of a run whose updates bring to their id only servers that agree. -/
theorem versions_agree (t : Table) (formed : Formed m)
    (start : ∀ p ∈ m.ports, (m.coms p).table = t ∧ (m.coms p).versionNum = 0)
    (run : MeetingRun m m₁) : VersionsAgree m₁ := by
  have initially : VersionsAgree m := by
    intro p inP q inQ _
    rw [(start p inP).1, (start q inQ).1]
  have kept : Formed m₁ ∧ VersionsAgree m₁ := by
    induction run with
    | start => exact ⟨formed, initially⟩
    | step _ meets moved ih => exact clusterStep_agrees ih.1 ih.2 meets moved
  exact kept.2

/-- Three servers in rotation at version 0, with the TCP ports that the generator gives them. -/
def threeOnline : Mem :=
  let server i := createDnsServer [] i clientPort (dnsPortNum + i)
  { startMem .roundRobin with router := ⟨.roundRobin, [server 0, server 1, server 2], 3, 0⟩ }

theorem threeOnline_formed : Formed threeOnline := ⟨rfl, by decide⟩

theorem threeOnline_start :
    ∀ p ∈ threeOnline.ports, (threeOnline.coms p).table = ∅ ∧ (threeOnline.coms p).versionNum = 0 :=
  fun _ _ => ⟨rfl, rfl⟩

theorem update_step (u : Update) (carried : u.Carried) (self ownPort : UInt16) (fail : Int8)
    (acks : Nat) (fates : List Fate) (formed : Formed m) (inside : self ∈ m.ports)
    (enough : (targets ownPort fail 0 m.ports).length ≤ fates.length) :
    ClusterStep m (.update u self ownPort fail acks fates)
      (updateAll u self ownPort fail m.ports acks fates m).2 := by
  obtain ⟨n, ran⟩ := updateHosts_runs u carried self ownPort fail m.ports acks fates m formed.few enough
  exact .update inside enough ran

theorem versions_agree_three :
    let m₁ := (updateAll (addNewDomain 1) 1181 1181 5 threeOnline.ports 4
      [.served true, .served true] threeOnline).2
    MeetingRun threeOnline m₁ ∧ VersionsAgree m₁ := by
  intro m₁
  let e : ClusterEvent := .update (addNewDomain 1) 1181 1181 5 4 [.served true, .served true]
  have meets : e.Meets threeOnline := by
    refine ⟨addNewDomain_carried 1, ?_⟩
    intro p _ q _ _
    refine ⟨fun _ d _ => rfl, fun _ atId => absurd atId ?_⟩
    change (0 : UInt8) ≠ 1
    decide
  have run : MeetingRun threeOnline m₁ :=
    .step .start meets (update_step (addNewDomain 1) (addNewDomain_carried 1) 1181 1181 5 4 _
      threeOnline_formed (by decide) (by decide))
  exact ⟨run, versions_agree ∅ threeOnline_formed threeOnline_start run⟩

/-- The removal of a domain `a`, the next update after that of `new_domain`. -/
def removeA : Update := ⟨true, [97], [49], 2⟩

theorem removeA_carried : removeA.Carried := by
  refine Update.carried_of_clean _ ⟨⟨?_, ?_, ?_⟩, ?_, ?_, ?_⟩ ?_
  all_goals simp [removeA, Update.Fits, Update.text, space, textSize]

/-- A server that missed one update takes the next, and is then at the version of servers
that missed none. -/
theorem missed_update_hidden :
    ∃ m₁ m₂, ClusterStep threeOnline (.update (addNewDomain 1) 1181 1181 1 4 [.served true]) m₁ ∧
      ClusterStep m₁ (.update removeA 1181 1181 5 4 [.served true, .served true]) m₂ ∧
      ¬ VersionsAgree m₂ := by
  refine ⟨_, _, update_step _ (addNewDomain_carried 1) 1181 1181 1 4 [.served true]
    threeOnline_formed (by decide) (by decide), update_step _ removeA_carried 1181 1181 5 4
    [.served true, .served true] ⟨rfl, by decide⟩ (by decide) (by decide), ?_⟩
  intro agree
  have same := congrArg (Finmap.lookup (addNewDomain 1).domain)
    (agree 1181 (by decide) 1182 (by decide) (by decide))
  revert same
  decide

end

end DnsServer
