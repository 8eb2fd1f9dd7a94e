import DnsServer.Cluster.Recovery

/-! The updates that the generator's tests make, and the test that makes one of them fail. -/
namespace DnsServer
open Process Program Relation Replication

/-- `new_domain` is taken out again. -/
def removeNewDomain (id : UInt8) : Update := { addNewDomain id with remove := true }

theorem removeNewDomain_carried (id : UInt8) : (removeNewDomain id).Carried := by
  have clean : (removeNewDomain id).Clean := ⟨(addNewDomain_clean id).domain, (addNewDomain_clean id).ip⟩
  exact Update.carried_of_clean _ clean (addNewDomain_fits id)

/-- The ports that the servers announce. -/
def tcpPorts (dnsServers : List Server) : List UInt16 := dnsServers.map (·.tcpPortNum)

@[simp] theorem length_tcpPorts (dnsServers : List Server) : (tcpPorts dnsServers).length = dnsServers.length :=
  List.length_map _

theorem tcpPorts_cons (server : Server) (dnsServers : List Server) :
    tcpPorts (server :: dnsServers) = server.tcpPortNum :: tcpPorts dnsServers := rfl

/-- The call of `update_hosts` on `u` in the wrappers: by `dns_servers[i]`, with the port of `dns_servers[0]`
for its own. -/
def updateFrom (dnsServers : List Server) (i : Nat) (u : Update) (fail : Int8) : Proc UInt8 :=
  match dnsServers[i]?, dnsServers[0]? with
  | some server, some first => updateHosts server.tcpPortNum u.remove u.domain u.ip first.tcpPortNum u.id fail
  | _, _ => fault

def addHostsWrapper (dnsServers : List Server) : Proc UInt8 := updateFrom dnsServers 0 (addNewDomain 1) 0

def removeHostsWrapper (dnsServers : List Server) : Proc UInt8 := updateFrom dnsServers 0 (removeNewDomain 2) 0

/-! `add_hosts_fail_wrapper` makes two calls; in between it pauses the first server and sleeps, so that a health
round may take that server out of the rotation. -/

/-- The index of the server that the first call is to miss, -1 for all of them. -/
def failChoice (dnsServerCnt random : UInt8) : Int :=
  let choice := random.toNat % (dnsServerCnt.toNat + 1)
  if choice = dnsServerCnt.toNat then -1 else choice

def addHostsFailFirst (dnsServers : List Server) (choice : Int) : Proc UInt8 :=
  updateFrom dnsServers 0 (addNewDomain 16) (Int8.ofInt choice)

def addHostsFailSecond (dnsServers : List Server) : Proc UInt8 := updateFrom dnsServers 1 (addNewDomain 16) 0

/-- What the test takes the code of the second call for. -/
def failAnswer (choice : Int) (res : UInt8) : Int :=
  if res = 6 then 0
  else if res = 0 then -1
  else if res = 8 then 1
  else if res = 9 ∧ choice > 1 then choice
  else -2

/-- The test prints `FAIL`. -/
def PrintsFail (choice : Int) (res : UInt8) : Prop := choice ≠ failAnswer choice res

instance (choice : Int) (res : UInt8) : Decidable (PrintsFail choice res) :=
  inferInstanceAs (Decidable (choice ≠ failAnswer choice res))

theorem mem_targets {ports : List UInt16} : p ∈ targets ownPort fail i ports ↔
    ∃ j : Nat, ports[j]? = some p ∧ p ≠ ownPort ∧ ((i + j : Nat) : Int) ≠ fail.toInt := by
  induction ports generalizing i with
  | nil => simp [targets]
  | cons port ports ih =>
    rw [← Nat.or_exists_add_one]
    have later : (∃ j : Nat, (port :: ports)[j + 1]? = some p ∧ p ≠ ownPort ∧
        ((i + (j + 1) : Nat) : Int) ≠ fail.toInt) ↔ p ∈ targets ownPort fail (i + 1) ports := by
      rw [ih]
      refine exists_congr fun j => ?_
      rw [List.getElem?_cons_succ, show i + (j + 1) = i + 1 + j by omega]
    rw [later, List.getElem?_cons_zero, Option.some_inj, Nat.add_zero, targets]
    by_cases skipped : port = ownPort ∨ (i : Int) = fail.toInt
    · rw [if_pos skipped]
      constructor
      · exact .inr
      · rintro (⟨rfl, other, named⟩ | member)
        · exact (skipped.elim other named).elim
        · exact member
    · rw [if_neg skipped, List.mem_cons]
      obtain ⟨other, named⟩ := not_or.mp skipped
      constructor
      · rintro (rfl | member)
        · exact .inl ⟨rfl, other, named⟩
        · exact .inr member
      · rintro (⟨rfl, _⟩ | member)
        · exact .inl rfl
        · exact .inr member

theorem targets_later {ports : List UInt16} (absent : ownPort ∉ ports) (later : 0 < i) :
    targets ownPort 0 i ports = ports := by
  induction ports generalizing i with
  | nil => rfl
  | cons port ports ih =>
    obtain ⟨other, absent⟩ := not_or.mp (List.mem_cons.not.mp absent)
    have zero : (0 : Int8).toInt = 0 := by decide
    rw [targets, if_neg, ih absent (Nat.succ_pos i)]
    rintro (own | named)
    · exact other own.symm
    · rw [zero] at named
      omega

/-- A call with the fail index -1 does nothing. -/
theorem served_stopped (u : Update) (carried : u.Carried) (self ownPort : UInt16) (ports : List UInt16)
    (few : ports.length ≤ 255) (m : Mem) : Served (u.call self ownPort (-1)) ports m 3 m := by
  have enough := (targets_sublist ownPort (-1) 0 ports).length_le
  obtain ⟨n, ran, session⟩ := updateHosts_session u carried self ownPort (-1) ports (ports.length + 1)
    (List.replicate ports.length (.served true)) m few (by rwa [List.length_replicate])
  rw [updateAll, if_pos rfl] at ran
  exact ⟨n, ran, session⟩

/-- The server itself among its contacts makes no difference to the code. -/
theorem updateCode_self (thisStale someStale someFresh : Bool) :
    updateCode thisStale (thisStale || someStale) (!thisStale || someFresh) =
      updateCode thisStale someStale someFresh := by
  revert thisStale someStale someFresh
  decide

theorem failChoice_cases (dnsServerCnt random : UInt8) :
    failChoice dnsServerCnt random = -1 ∨ ∃ k : Nat, k < dnsServerCnt.toNat ∧ failChoice dnsServerCnt random = k := by
  have range : random.toNat % (dnsServerCnt.toNat + 1) < dnsServerCnt.toNat + 1 := Nat.mod_lt _ (Nat.succ_pos _)
  simp only [failChoice]
  split
  · exact .inl rfl
  · exact .inr ⟨_, by omega, rfl⟩

theorem toInt_ofNat {k : Nat} (small : k < 128) : (Int8.ofInt (k : Int)).toInt = k := by
  exact Int8.toInt_ofInt_of_le (by omega) (by omega)

/-- The first call brings the update to all servers but the one that it is to miss. -/
theorem first_call_misses (dnsServers : List Server) (distinct : (tcpPorts dnsServers).Nodup)
    (some_ : dnsServers ≠ []) (few : dnsServers.length ≤ 128) (m : Mem) (choice : Int)
    (away : ∀ p ∈ tcpPorts dnsServers, ¬ m.AtId (addNewDomain 16) p)
    (chosen : choice = -1 ∨ ∃ k : Nat, k < dnsServers.length ∧ choice = k) :
    ∃ code m₁, Served (addHostsFailFirst dnsServers choice) (tcpPorts dnsServers) m code m₁ ∧
      (addNewDomain 16).command.Reaches m.replicas m₁.replicas ∧
      ∀ (j : Nat) p, (tcpPorts dnsServers)[j]? = some p →
        (m₁.AtId (addNewDomain 16) p ↔ choice ≠ -1 ∧ (j = 0 ∨ choice ≠ j)) := by
  obtain ⟨first, others, rfl⟩ := List.exists_cons_of_ne_nil some_
  have short : (tcpPorts (first :: others)).length ≤ 255 := by
    rw [length_tcpPorts]
    omega
  have carried := addNewDomain_carried 16
  rcases chosen with rfl | ⟨k, range, rfl⟩
  · refine ⟨3, m, served_stopped _ carried first.tcpPortNum first.tcpPortNum _ short m, .refl _ _, ?_⟩
    intro j p at_
    exact iff_of_false (away p (List.mem_of_getElem? at_)) fun reached => reached.1 rfl
  · have named : (Int8.ofInt (k : Int)).toInt = k := toInt_ofNat (by omega)
    have started : Int8.ofInt (k : Int) ≠ -1 := by
      intro stops
      rw [stops] at named
      have minus : (-1 : Int8).toInt = -1 := by decide
      omega
    obtain ⟨m₁, served, completes, others_⟩ := served_runs (addNewDomain 16) carried first.tcpPortNum
      first.tcpPortNum (Int8.ofInt k) _ distinct short started m
    refine ⟨_, m₁, served, completes.reaches, ?_⟩
    intro j p at_
    have stale := away p (List.mem_of_getElem? at_)
    have own : p = first.tcpPortNum ↔ j = 0 := by
      constructor
      · intro same
        have zero : (tcpPorts (first :: others))[0]? = some p := by
          rw [same]
          rfl
        exact (List.getElem?_inj (List.getElem?_eq_some_iff.mp at_).1 distinct).mp (at_.trans zero.symm)
      · rintro rfl
        exact (Option.some.inj at_).symm
    have taken : p = first.tcpPortNum ∨
        p ∈ targets first.tcpPortNum (Int8.ofInt k) 0 (tcpPorts (first :: others)) ↔ j = 0 ∨ j ≠ k := by
      rw [own]
      refine or_congr_right' fun later => ?_
      rw [mem_targets, named]
      constructor
      · rintro ⟨i, there, _, differs⟩
        have same : i = j :=
          (List.getElem?_inj (List.getElem?_eq_some_iff.mp there).1 distinct).mp (there.trans at_.symm)
        omega
      · intro differs
        exact ⟨j, at_, fun same => later (own.mp same), by omega⟩
    have whole : m₁.AtId (addNewDomain 16) p ↔ j = 0 ∨ j ≠ k := by
      rw [← taken]
      constructor
      · intro fresh
        by_contra missed
        obtain ⟨other, absent⟩ := not_or.mp missed
        have kept := others_ p other absent
        exact stale ((congrArg Coms.versionNum kept).symm.trans fresh)
      · intro member
        have version := congrArg Replica.version (completes.all p member)
        rwa [take_version] at version
    rw [whole]
    constructor
    · rintro (zero | differs)
      · exact ⟨by omega, .inl zero⟩
      · exact ⟨by omega, .inr (by omega)⟩
    · rintro ⟨_, zero | differs⟩
      · exact .inl zero
      · exact .inr (by omega)

/-- The second call brings the update to all servers but the first, whether that is still announced or not; its
code says how it stood with the second server and with those after it. -/
theorem second_call_completes (first second : Server) (others : List Server)
    (distinct : (tcpPorts (first :: second :: others)).Nodup) (few : (first :: second :: others).length ≤ 128)
    (left : again = tcpPorts (first :: second :: others) ∨ again = tcpPorts (second :: others))
    (m : Mem) :
    ∃ m₁, Served (addHostsFailSecond (first :: second :: others)) again m
        (updateCode ((m.coms second.tcpPortNum).versionNum != 16)
          ((tcpPorts others).any fun p => !decide (m.AtId (addNewDomain 16) p))
          ((tcpPorts others).any fun p => decide (m.AtId (addNewDomain 16) p))) m₁ ∧
      (addNewDomain 16).command.Completes {p | p ∈ tcpPorts (second :: others)} m.replicas m₁.replicas ∧
      m₁.coms first.tcpPortNum = m.coms first.tcpPortNum := by
  obtain ⟨firstNew, rest⟩ := List.nodup_cons.mp distinct
  have zero : (0 : Int8).toInt = 0 := by decide
  change first.tcpPortNum ∉ tcpPorts (second :: others) at firstNew
  change (tcpPorts (second :: others)).Nodup at rest
  have behind : first.tcpPortNum ∉ tcpPorts others := fun member => firstNew (List.mem_cons_of_mem _ member)
  have apart : first.tcpPortNum ≠ second.tcpPortNum := by
    intro same
    rw [same] at firstNew
    exact firstNew List.mem_cons_self
  have carried := addNewDomain_carried 16
  have counts : (tcpPorts (first :: second :: others)).length ≤ 255 := by
    rw [length_tcpPorts]
    omega
  rcases left with rfl | rfl
  · have contacted : targets first.tcpPortNum 0 0 (tcpPorts (first :: second :: others)) =
        tcpPorts (second :: others) := by
      rw [tcpPorts_cons, targets, if_pos (.inl rfl), targets_later firstNew (by omega)]
    obtain ⟨m₁, served, completes, kept⟩ := served_runs (addNewDomain 16) carried second.tcpPortNum
      first.tcpPortNum 0 _ distinct counts (by decide) m
    rw [contacted] at served completes kept
    refine ⟨m₁, ?_, ⟨completes.reaches, fun p member => completes.all p (.inr member)⟩, ?_⟩
    · have own : ((m.coms second.tcpPortNum).versionNum != (16 : UInt8)) =
          !decide (m.AtId (addNewDomain 16) second.tcpPortNum) := by
        rw [bne, beq_eq_decide]
        exact congrArg not (decide_eq_decide.mpr Iff.rfl)
      have code := updateCode_self (!decide (m.AtId (addNewDomain 16) second.tcpPortNum))
        ((tcpPorts others).any fun p => !decide (m.AtId (addNewDomain 16) p))
        ((tcpPorts others).any fun p => decide (m.AtId (addNewDomain 16) p))
      rw [Bool.not_not] at code
      rw [own, ← code, ← own]
      exact served
    · exact kept _ apart firstNew
  · have contacted : targets first.tcpPortNum 0 0 (tcpPorts (second :: others)) =
        tcpPorts others := by
      rw [tcpPorts_cons, targets, if_pos (.inr zero.symm), targets_later behind (by omega)]
    obtain ⟨m₁, served, completes, kept⟩ := served_runs (addNewDomain 16) carried second.tcpPortNum
      first.tcpPortNum 0 _ rest ((Nat.le_succ _).trans counts) (by decide) m
    rw [contacted] at served completes kept
    refine ⟨m₁, served, ⟨completes.reaches, fun p member => completes.all p ?_⟩, ?_⟩
    · exact List.mem_cons.mp member
    · exact kept _ apart behind

/-- The servers after the second one, by their places. -/
theorem any_tcpPorts (first second : Server) (others : List Server) (f : UInt16 → Bool) :
    (tcpPorts others).any f = true ↔
      ∃ (j : Nat) (p : UInt16), 2 ≤ j ∧ (tcpPorts (first :: second :: others))[j]? = some p ∧ f p = true := by
  rw [List.any_eq_true]
  constructor
  · rintro ⟨p, member, holds⟩
    obtain ⟨j, at_⟩ := List.mem_iff_getElem?.mp member
    exact ⟨j + 2, p, Nat.le_add_left _ _, at_, holds⟩
  · rintro ⟨j, p, later, at_, holds⟩
    obtain ⟨i, rfl⟩ := Nat.exists_eq_add_of_le' later
    exact ⟨p, List.mem_of_getElem? (show (tcpPorts others)[i]? = some p from at_), holds⟩

/-- The answer is right wherever there is a third server to tell the cases apart. -/
theorem printsFail_iff {choice : Int} {n : Nat} {thisStale someStale someFresh : Bool}
    (chosen : choice = -1 ∨ ∃ k : Nat, k < n ∧ choice = k) (two : 2 ≤ n)
    (own : thisStale = true ↔ choice = -1 ∨ choice = 1)
    (stale : someStale = true ↔ ∃ j : Nat, 2 ≤ j ∧ j < n ∧ (choice = -1 ∨ choice = j))
    (fresh : someFresh = true ↔ ∃ j : Nat, 2 ≤ j ∧ j < n ∧ choice ≠ -1 ∧ choice ≠ j) :
    PrintsFail choice (updateCode thisStale someStale someFresh) ↔ n = 2 ∧ choice = 1 := by
  rcases chosen with rfl | ⟨k, range, rfl⟩
  · have ownStale : thisStale = true := own.mpr (.inl rfl)
    have noneFresh : someFresh = false := by
      rw [Bool.eq_false_iff, Ne, fresh]
      rintro ⟨_, _, _, differs, _⟩
      exact differs rfl
    rw [ownStale, noneFresh]
    exact iff_of_false (by cases someStale <;> decide) fun both => absurd both.2 (by decide)
  · match k with
    | 0 =>
      have ownFresh : thisStale = false := by
        rw [Bool.eq_false_iff, Ne, own]
        omega
      have allFresh : someStale = false := by
        rw [Bool.eq_false_iff, Ne, stale]
        rintro ⟨j, later, _, missed⟩
        omega
      rw [ownFresh, allFresh]
      exact iff_of_false (by cases someFresh <;> decide) fun both => absurd both.2 (by decide)
    | 1 =>
      have ownStale : thisStale = true := own.mpr (.inr rfl)
      rw [ownStale]
      by_cases last : n = 2
      · have noneFresh : someFresh = false := by
          rw [Bool.eq_false_iff, Ne, fresh]
          rintro ⟨j, later, within, _⟩
          omega
        rw [noneFresh]
        exact iff_of_true (by cases someStale <;> decide) ⟨last, rfl⟩
      · have third : someFresh = true := fresh.mpr ⟨2, le_rfl, by omega, by omega, by omega⟩
        rw [third]
        exact iff_of_false (by cases someStale <;> decide) fun both => last both.1
    | k + 2 =>
      have ownFresh : thisStale = false := by
        rw [Bool.eq_false_iff, Ne, own]
        omega
      have missed : someStale = true := stale.mpr ⟨k + 2, by omega, range, .inr rfl⟩
      have code : updateCode false true someFresh = 9 := by cases someFresh <;> rfl
      rw [ownFresh, missed, code]
      refine iff_of_false (fun fails => fails ?_) (by omega)
      have large : ((k + 2 : Nat) : Int) > 1 := by omega
      rw [failAnswer, if_neg (by decide), if_neg (by decide), if_neg (by decide), if_pos ⟨rfl, large⟩]

/-- What the test leaves: all servers but the first have the update, and that one has it unless the first call was
stopped; `FAIL` is printed just when there are two servers and the second one was missed, which the code of the second
call cannot tell from both. -/
structure FailTestLeaves (dnsServers : List Server) (choice : Int) (res : UInt8) (m m₂ : Mem) : Prop where
  others : ∀ p ∈ (tcpPorts dnsServers).tail, Converged (addNewDomain 16) (m.coms p) (m₂.coms p)
  first : ∀ first ∈ (tcpPorts dnsServers).head?, m₂.AtId (addNewDomain 16) first ↔ choice ≠ -1
  prints : PrintsFail choice res ↔ dnsServers.length = 2 ∧ choice = 1

/-- Whichever server the test misses, its second call mends that, whether or not the first server has left the
rotation by then. -/
theorem fail_test_mends (dnsServers : List Server) (distinct : (tcpPorts dnsServers).Nodup)
    (two : 2 ≤ dnsServers.length) (few : dnsServers.length ≤ 128) (random : UInt8) (m : Mem)
    (away : ∀ p ∈ tcpPorts dnsServers, ¬ m.AtId (addNewDomain 16) p)
    (left : again = tcpPorts dnsServers ∨ again = (tcpPorts dnsServers).tail) :
    let choice := failChoice (UInt8.ofNat dnsServers.length) random
    ∃ code m₁ res m₂, Served (addHostsFailFirst dnsServers choice) (tcpPorts dnsServers) m code m₁ ∧
      Served (addHostsFailSecond dnsServers) again m₁ res m₂ ∧ FailTestLeaves dnsServers choice res m m₂ := by
  intro choice
  have counted : (UInt8.ofNat dnsServers.length).toNat = dnsServers.length := by
    rw [UInt8.toNat_ofNat']
    omega
  have chosen : choice = -1 ∨ ∃ k : Nat, k < dnsServers.length ∧ choice = k := by
    have cases_ := failChoice_cases (UInt8.ofNat dnsServers.length) random
    rwa [counted] at cases_
  match dnsServers, two with
  | first :: second :: others, two =>
  obtain ⟨code, m₁, served, reached, missed⟩ :=
    first_call_misses (first :: second :: others) distinct (by simp) few m choice away chosen
  obtain ⟨m₂, served₂, completes, kept⟩ := second_call_completes first second others distinct few left m₁
  refine ⟨code, m₁, _, m₂, served, served₂, ?_, ?_, ?_⟩
  · intro p member
    exact converged_of_taken _ ((reached.completes completes).all p member)
  · rintro _ ⟨⟩
    rw [Mem.AtId, kept]
    exact (missed 0 _ rfl).trans (and_iff_left (.inl rfl))
  · have placed : ∀ j p, (tcpPorts (first :: second :: others))[j]? = some p →
        j < (first :: second :: others).length := by
      intro j p at_
      have within := (List.getElem?_eq_some_iff.mp at_).1
      rwa [length_tcpPorts] at within
    have listed : ∀ j, j < (first :: second :: others).length →
        ∃ p, (tcpPorts (first :: second :: others))[j]? = some p := by
      intro j within
      rw [← length_tcpPorts] at within
      exact ⟨_, List.getElem?_eq_getElem within⟩
    apply printsFail_iff chosen two
    · have second_ := missed 1 second.tcpPortNum rfl
      rw [bne_iff_ne]
      change ¬ m₁.AtId (addNewDomain 16) second.tcpPortNum ↔ _
      rw [second_]
      omega
    · rw [any_tcpPorts first second others]
      constructor
      · rintro ⟨j, p, later, at_, stale⟩
        refine ⟨j, later, placed j p at_, ?_⟩
        have none : ¬ m₁.AtId (addNewDomain 16) p := by simpa using stale
        rw [missed j p at_] at none
        omega
      · rintro ⟨j, later, within, named⟩
        obtain ⟨p, at_⟩ := listed j within
        have none : ¬ m₁.AtId (addNewDomain 16) p := by
          rw [missed j p at_]
          omega
        exact ⟨j, p, later, at_, by simpa using none⟩
    · rw [any_tcpPorts first second others]
      constructor
      · rintro ⟨j, p, later, at_, fresh⟩
        have there := of_decide_eq_true fresh
        rw [missed j p at_] at there
        exact ⟨j, later, placed j p at_, there.1, by omega⟩
      · rintro ⟨j, later, within, started, named⟩
        obtain ⟨p, at_⟩ := listed j within
        exact ⟨j, p, later, at_, decide_eq_true ((missed j p at_).mpr ⟨started, .inr named⟩)⟩

/-- The calls of the test can be served by all, and then there is one outcome. -/
theorem fail_test_judges (dnsServers : List Server) (distinct : (tcpPorts dnsServers).Nodup)
    (two : 2 ≤ dnsServers.length) (few : dnsServers.length ≤ 128) (random : UInt8) (m : Mem)
    (away : ∀ p ∈ tcpPorts dnsServers, ¬ m.AtId (addNewDomain 16) p)
    (left : again = tcpPorts dnsServers ∨ again = (tcpPorts dnsServers).tail) :
    let choice := failChoice (UInt8.ofNat dnsServers.length) random
    (∃ code m₁ res m₂, Served (addHostsFailFirst dnsServers choice) (tcpPorts dnsServers) m code m₁ ∧
      Served (addHostsFailSecond dnsServers) again m₁ res m₂) ∧
    ∀ code m₁ res m₂, Served (addHostsFailFirst dnsServers choice) (tcpPorts dnsServers) m code m₁ →
      Served (addHostsFailSecond dnsServers) again m₁ res m₂ → FailTestLeaves dnsServers choice res m m₂ := by
  intro choice
  obtain ⟨code, m₁, res, m₂, first, second, leaves⟩ := fail_test_mends dnsServers distinct two few random m away left
  refine ⟨⟨code, m₁, res, m₂, first, second⟩, fun code' m₁' res' m₂' first' second' => ?_⟩
  obtain ⟨_, rfl⟩ := first.unique first'
  obtain ⟨rfl, rfl⟩ := second.unique second'
  exact leaves

/-- Two servers, the second of which the test misses. -/
def twoServers : List Server := [createDnsServer [] 0 1050 1053, createDnsServer [] 1 1050 1054]

theorem fail_test_judges_two : failChoice 2 1 = 1 ∧
    (∃ code m₁ res m₂, Served (addHostsFailFirst twoServers 1) [1181, 1182] (startMem .roundRobin) code m₁ ∧
      Served (addHostsFailSecond twoServers) [1182] m₁ res m₂) ∧
    ∀ code m₁ res m₂, Served (addHostsFailFirst twoServers 1) [1181, 1182] (startMem .roundRobin) code m₁ →
      Served (addHostsFailSecond twoServers) [1182] m₁ res m₂ →
      FailTestLeaves twoServers 1 res (startMem .roundRobin) m₂ := by
  have away : ∀ p ∈ tcpPorts twoServers, ¬ (startMem .roundRobin).AtId (addNewDomain 16) p :=
    fun _ _ => show (0 : UInt8) ≠ 16 by decide
  exact ⟨by decide, fail_test_judges twoServers (by decide) (by decide) (by decide) 1 (startMem .roundRobin) away
    (.inr rfl)⟩

end DnsServer
