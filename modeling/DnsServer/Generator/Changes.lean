import DnsServer.Generator.Bench
import DnsServer.Generator.Updates

/-! Tests that change translations while they run. -/
namespace DnsServer
open Process Relation Replication Memory
variable {Time : Type}

/-- Whom a call of the first server brings its update, when these ports are announced and no contact fails: the
server at index 0 is skipped, whichever it is. -/
def CallReaches (first : Server) (ports : List UInt16) (p : UInt16) : Prop := p = first.tcpPortNum ∨ p ∈ ports.tail

instance : DecidablePred (CallReaches first ports) := fun _ => inferInstanceAs (Decidable (_ ∨ _))

theorem mem_targets_zero {ports : List UInt16} :
    p ∈ targets ownPort 0 0 ports ↔ p ≠ ownPort ∧ p ∈ ports.tail := by
  have zero : (0 : Int8).toInt = 0 := by decide
  rw [mem_targets, List.mem_iff_getElem?]
  constructor
  · rintro ⟨j, there, other, named⟩
    obtain ⟨i, rfl⟩ := Nat.exists_eq_add_of_le' (show 1 ≤ j by omega)
    exact ⟨other, i, by rwa [List.getElem?_tail]⟩
  · rintro ⟨other, i, there⟩
    rw [List.getElem?_tail] at there
    exact ⟨i + 1, there, other, by omega⟩

theorem updateFrom_reaches (u : Update) (carried : u.Carried) (first : Server) (others : List Server)
    (distinct : ports.Nodup) (few : ports.length ≤ 255) (m : Mem) :
    ∃ code m₁, Served (updateFrom (first :: others) 0 u 0) ports m code m₁ ∧
      ∀ p, m₁.replicas p = if CallReaches first ports p then u.command.take (m.replicas p) else m.replicas p := by
  obtain ⟨m₁, served, completes, kept⟩ :=
    served_runs u carried first.tcpPortNum first.tcpPortNum 0 ports distinct few (by decide) m
  refine ⟨_, m₁, served, fun p => ?_⟩
  have listed : CallReaches first ports p ↔
      p = first.tcpPortNum ∨ p ∈ targets first.tcpPortNum 0 0 ports := by
    rw [mem_targets_zero, CallReaches]
    tauto
  by_cases reached : CallReaches first ports p
  · rw [if_pos reached]
    exact completes.all p (listed.mp reached)
  · rw [if_neg reached]
    obtain ⟨other, absent⟩ := not_or.mp fun member => reached (listed.mpr member)
    exact congrArg Coms.replica (kept p other absent)

theorem lookup_reached (u : Update) {before after : Coms} {reached : Prop} [Decidable reached]
    (stale : before.versionNum ≠ u.id)
    (taken : after.replica = if reached then u.command.take before.replica else before.replica) :
    after.versionNum = (if reached then u.id else before.versionNum) ∧
      ∀ d, after.table.lookup d = if d = u.domain ∧ reached then u.entry else before.table.lookup d := by
  by_cases here : reached
  · rw [if_pos here, take_stale stale] at taken
    have table : after.table = u.apply before.table := congrArg Replica.state taken
    rw [if_pos here, table]
    refine ⟨congrArg Replica.version taken, fun d => ?_⟩
    simp only [lookup_apply, and_iff_left here]
  · rw [if_neg here] at taken
    have table : after.table = before.table := congrArg Replica.state taken
    rw [if_neg here, table]
    exact ⟨congrArg Replica.version taken, fun d => (if_neg fun both => here both.2).symm⟩

/-- The test that changes translations leaves each server at the version of the last change that it was reached by;
`new_domain` stays with the servers that the first change reached and the second did not, and no other name is
touched. -/
theorem translation_test_leaves (first : Server) (others : List Server) (distinct : ports.Nodup)
    (few : ports.length ≤ 255) (distinct₁ : ports₁.Nodup) (few₁ : ports₁.length ≤ 255) (m : Mem)
    (new : ∀ p, (m.coms p).versionNum ≠ 1 ∧ (m.coms p).versionNum ≠ 2) :
    ∃ code m₁ code₁ m₂, Served (addHostsWrapper (first :: others)) ports m code m₁ ∧
      Served (removeHostsWrapper (first :: others)) ports₁ m₁ code₁ m₂ ∧
      ∀ p, (m₂.coms p).versionNum =
          (if CallReaches first ports₁ p then 2 else if CallReaches first ports p then 1 else (m.coms p).versionNum) ∧
        ∀ d, (m₂.coms p).table.lookup d =
          if d = (addNewDomain 1).domain then
            if CallReaches first ports₁ p then none
            else if CallReaches first ports p then some (addNewDomain 1).ip
            else (m.coms p).table.lookup d
          else (m.coms p).table.lookup d := by
  obtain ⟨code, m₁, served, once⟩ :=
    updateFrom_reaches (addNewDomain 1) (addNewDomain_carried 1) first others distinct few m
  obtain ⟨code₁, m₂, served₁, twice⟩ :=
    updateFrom_reaches (removeNewDomain 2) (removeNewDomain_carried 2) first others distinct₁ few₁ m₁
  refine ⟨code, m₁, code₁, m₂, served, served₁, fun p => ?_⟩
  obtain ⟨one, added⟩ := lookup_reached (addNewDomain 1) (new p).1 (once p)
  have stale : (m₁.coms p).versionNum ≠ 2 := by
    rw [one]
    split
    · exact show (1 : UInt8) ≠ 2 by decide
    · exact (new p).2
  obtain ⟨two, removed⟩ := lookup_reached (removeNewDomain 2) stale (twice p)
  refine ⟨by rw [two, one]; rfl, fun d => ?_⟩
  rw [removed, added]
  change (if d = (addNewDomain 1).domain ∧ CallReaches first ports₁ p then none
    else if d = (addNewDomain 1).domain ∧ CallReaches first ports p then some (addNewDomain 1).ip else _) = _
  by_cases same : d = (addNewDomain 1).domain
  · simp only [same, true_and, if_true]
  · simp only [same, false_and, if_false]

/-- A server is announced to the first change only, and keeps the name. -/
theorem translation_test_leaves_name : ∃ code m₁ code₁ m₂,
    Served (addHostsWrapper twoServers) [1181, 1182] (startMem .roundRobin) code m₁ ∧
    Served (removeHostsWrapper twoServers) [1181] m₁ code₁ m₂ ∧
    ∀ p, (m₂.coms p).versionNum = (if p = 1181 ∨ p ∈ [] then 2 else if p = 1181 ∨ p ∈ [1182] then 1 else 0) ∧
      ∀ d, (m₂.coms p).table.lookup d =
        if d = (addNewDomain 1).domain then
          if p = 1181 ∨ p ∈ [] then none
          else if p = 1181 ∨ p ∈ [1182] then some (addNewDomain 1).ip
          else ((startMem .roundRobin).coms p).table.lookup d
        else ((startMem .roundRobin).coms p).table.lookup d :=
  translation_test_leaves (createDnsServer [] 0 1050 1053) [createDnsServer [] 1 1050 1054]
    (show ([1181, 1182] : List UInt16).Nodup by decide) (by decide) (show ([1181] : List UInt16).Nodup by decide)
    (by decide) (startMem .roundRobin)
    fun _ => ⟨show (0 : UInt8) ≠ 1 by decide, show (0 : UInt8) ≠ 2 by decide⟩

/-- Some server has tried to make one of the updates, whatever came of it. What a call that is under way has done so far
is what one does that fails there. -/
def TriedOf (us : List Update) (m m₁ : Mem) : Prop := ∃ u ∈ us, Tried u m m₁

theorem lookup_tried (carried : u.Carried) (tried : Tried u m m₁) (other : d ≠ u.domain) (p : UInt16) :
    (m₁.coms p).table.lookup d = (m.coms p).table.lookup d := by
  rcases tried_reaches carried (.single tried) p with same | taken
  · have table : (m₁.coms p).table = (m.coms p).table := congrArg Replica.state same
    rw [table]
  · exact (converged_of_taken u taken).elsewhere d other

/-- While updates are tried, a name that none of them is for is translated as at the start, all along. -/
theorem lookup_run [Zero Time] {e e₁ : Bench Time} (carried : ∀ u ∈ us, u.Carried) (other : ∀ u ∈ us, d ≠ u.domain)
    (run : ReflTransGen (BenchStep all (TriedOf us) domains domainCnt) e e₁) (p : UInt16) :
    (e₁.mem.coms p).table.lookup d = (e.mem.coms p).table.lookup d := by
  refine coms_run (P := fun c => (c p).table.lookup d = (e.mem.coms p).table.lookup d) run rfl ?_
  rintro m m₁ same ⟨u, member, tried⟩
  rw [lookup_tried (carried u member) tried (other u member) p, same]

/-- A request to which an answer has been scored has it in its row. -/
theorem BenchSound.answered [Zero Time] {e : Bench Time} (sound : BenchSound all tables (sentIds (runTest arguments)) e) :
    List.Forall₂ (fun r s => r.id = s.id ∧ (s.id ∈ e.scored.map (·.1) → ∃ coms, tables s coms ∧
        r.recieved = 1 ∧ r.found = if cString s.domain ∈ coms.table then 1 else 0))
      (destroyScoreboard e.handler.scoreboard).written e.entered := by
  refine forall₂_imp_mem sound.rows fun r _ s there row => ⟨row.named, fun scored => ?_⟩
  obtain ⟨p, member, named⟩ := List.mem_map.mp scored
  have some_ : (e.scored.lookup s.id).isSome := List.lookup_isSome_iff.mpr ⟨p, member, by simpa using named.symm⟩
  obtain ⟨coms, here⟩ := Option.isSome_iff_exists.mp some_
  obtain ⟨before, after, split, _⟩ := List.lookup_eq_some_iff.mp here
  have answer : (s.id, coms) ∈ e.scored := by
    rw [split]
    exact List.mem_append_right _ List.mem_cons_self
  obtain ⟨s₁, entered, same, holds⟩ := sound.scored _ answer
  cases sound.told (sentIds_distinct arguments).1 (List.mem_append_left _ entered) (List.mem_append_left _ there) same
  exact ⟨coms, holds, row.answered coms here⟩

/-- In a test that makes changes to the tables, whatever becomes of these, a request for a name that they are not
for is scored by the table that its server had at the start. -/
theorem other_names_scored [Zero Time] {e e₁ : Bench Time} (us : List Update) (carried : ∀ u ∈ us, u.Carried)
    (fleet : Fleet all) (start : BenchStart all arguments e)
    (run : ReflTransGen (BenchStep all (TriedOf us) domains domainCnt) e e₁) :
    List.Forall₂ (fun r s => r.id = s.id ∧ (s.id ∈ e₁.scored.map (·.1) → (∀ u ∈ us, cString s.domain ≠ u.domain) →
        r.recieved = 1 ∧ r.found = if cString s.domain ∈ (e.mem.coms s.server.tcpPortNum).table then 1 else 0))
      (destroyScoreboard e₁.handler.scoreboard).written e₁.entered := by
  have sound := bench_sound fleet (start.sound fun _ _ => False) run
  refine sound.answered.imp fun r s ⟨named, answered⟩ => ⟨named, fun scored other => ?_⟩
  obtain ⟨coms, had, recieved, found⟩ := answered scored
  obtain ⟨e', since, _, _, rfl⟩ := had.resolve_left False.elim
  have kept := lookup_run carried other since s.server.tcpPortNum
  have same : cString s.domain ∈ (e'.mem.coms s.server.tcpPortNum).table ↔
      cString s.domain ∈ (e.mem.coms s.server.tcpPortNum).table := by
    rw [← Finmap.lookup_isSome, ← Finmap.lookup_isSome, kept]
  simp only [same] at found
  exact ⟨recieved, found⟩

/-- A call of the only server, with itself for the only port. -/
def loneTrial : Trial := ⟨1181, 1181, 0, [1181], 2, [], by decide, by decide⟩

/-- The first change is made before the first request, which is for another name. -/
theorem other_names_scored_first : ∃ e₁ : Bench Nat, (e₁.mem.coms loneServer.tcpPortNum).versionNum = 1 ∧
    e₁.scored.map (·.1) = [0] ∧
    List.Forall₂ (fun r s => r.id = s.id ∧ (s.id ∈ e₁.scored.map (·.1) →
        (∀ u ∈ [addNewDomain 1, removeNewDomain 2], cString s.domain ≠ u.domain) →
        r.recieved = 1 ∧ r.found = if cString s.domain ∈ nameComs.table then 1 else 0))
      (destroyScoreboard e₁.handler.scoreboard).written e₁.entered := by
  let begin_ : Bench Nat := loneBench fun _ => nameComs
  have made := loneTrial.made (addNewDomain 1) (addNewDomain_carried 1) begin_.mem
  have update : BenchStep (· = loneServer) (TriedOf [addNewDomain 1, removeNewDomain 2]) [[110]] 1 begin_ _ :=
    .update ⟨addNewDomain 1, List.mem_cons_self, loneTrial, _, _, _, made⟩
  obtain ⟨e₁, run, _, scored, coms⟩ := loneBench_scored (· = loneServer) _ rfl _
  refine ⟨e₁, ?_, ?_, other_names_scored _ ?_ loneServer_fleet (loneBench_start _) (.head update run)⟩
  · rw [coms]
    rfl
  · rw [scored]
    rfl
  · rw [List.forall_mem_cons, List.forall_mem_singleton]
    exact ⟨addNewDomain_carried 1, removeNewDomain_carried 2⟩

/-! Requests that are sent after a change has been made. -/

/-- A call that is served by all brings the update to all, whatever was tried before. -/
theorem served_converges (u : Update) (clean : u.Clean) (fits : u.Fits) (distinct : ports.Nodup)
    (few : ports.length ≤ 255) (started : fail ≠ -1)
    (fair : ∀ i : Nat, ∀ port ∈ ports[i]?, (i : Int) = fail.toInt → port = self)
    (tried : ReflTransGen (Tried u) m m₁) (served : Served (u.call self self fail) ports m₁ code m₂)
    (member : p ∈ ports) : Converged u (m.coms p) (m₂.coms p) := by
  have carried := u.carried_of_clean clean fits
  have whole := (tried_reaches carried tried).completes
    (served_completes u carried distinct few started served)
  rw [targets_eq_peers fail ports 0 fun i port at_ named => fair i port at_ (by omega)] at whole
  apply converged_of_taken u
  apply whole.all p
  by_cases own : p = self
  · exact .inl own
  · exact .inr (List.mem_filter.mpr ⟨member, by simpa using own⟩)

/-- After an update has been made to all servers, in a call of it that may have been tried before, requests that are
sent for its domain are scored as it says, whatever other domains are changed then. -/
theorem changed_names_scored [Zero Time] {e e₁ e₂ : Bench Time} (u : Update) (clean : u.Clean) (fits : u.Fits)
    (fleet : Fleet all) (listed : ∀ server, all server → server.tcpPortNum ∈ ports)
    (fresh : ∀ server, all server → ¬ m.AtId u server.tcpPortNum) (distinct : ports.Nodup) (few : ports.length ≤ 255)
    (started : fail ≠ -1) (fair : ∀ i : Nat, ∀ port ∈ ports[i]?, (i : Int) = fail.toInt → port = self)
    (tried : ReflTransGen (Tried u) m m₁) (served : Served (u.call self self fail) ports m₁ code m₂)
    (us : List Update) (carried : ∀ v ∈ us, v.Carried) (other : ∀ v ∈ us, u.domain ≠ v.domain)
    (start : BenchStart all arguments e) (before : ReflTransGen (BenchStep all was domains domainCnt) e e₁)
    (changed : e₁.mem.coms = m₂.coms)
    (after : ReflTransGen (BenchStep all (TriedOf us) domains domainCnt) e₁ e₂) :
    List.Forall₂ (fun r s => r.id = s.id ∧ (s.id ∈ e₂.scored.map (·.1) → s ∉ e₁.sent → cString s.domain = u.domain →
        r.recieved = 1 ∧ r.found = if u.remove then 0 else 1))
      (destroyScoreboard e₂.handler.scoreboard).written e₂.entered := by
  have first := (bench_sound fleet (start.sound fun _ _ => True) before).mono (fun s _ => s ∈ e₁.sent) fun _ member _ _ => member
  have sound := bench_sound fleet first after
  refine forall₂_imp_mem sound.answered fun r _ s there ⟨named, answered⟩ => ⟨named, fun scored later same => ?_⟩
  obtain ⟨coms, had, recieved, found⟩ := answered scored
  obtain ⟨e', since, _, _, rfl⟩ := had.resolve_left later
  have known : all s.server := sound.genuine s (List.mem_append_left _ there)
  have converged := served_converges u clean fits distinct few started fair tried served (listed _ known)
  have entry := converged.prescribed (fresh _ known)
  rw [← changed, ← lookup_run carried other since, ← same] at entry
  have has : cString s.domain ∈ (e'.mem.coms s.server.tcpPortNum).table ↔ u.remove = false := by
    rw [← Finmap.lookup_isSome, entry, Update.entry]
    cases u.remove <;> simp
  refine ⟨recieved, found.trans ?_⟩
  simp only [has]
  cases u.remove <;> rfl

/-- The update that adds the name of the first request. -/
def nameUpdate : Update := ⟨false, [110], [49], 1⟩

theorem changed_names_scored_first : ∃ (m₂ : Mem) (e₂ : Bench Nat), e₂.scored.map (·.1) = [0] ∧
    e₂.entered = [⟨0, nameUpdate.domain, loneServer⟩] ∧
    List.Forall₂ (fun r s => r.id = s.id ∧ (s.id ∈ e₂.scored.map (·.1) → s ∉ (loneBench m₂.coms).sent →
        cString s.domain = nameUpdate.domain → r.recieved = 1 ∧ r.found = if nameUpdate.remove then 0 else 1))
      (destroyScoreboard e₂.handler.scoreboard).written e₂.entered := by
  have clean : nameUpdate.Clean := by
    refine ⟨⟨?_, ?_, ?_⟩, ?_, ?_, ?_⟩
    all_goals simp [nameUpdate, space]
  have fits : nameUpdate.Fits := by simp [nameUpdate, Update.Fits, Update.text, textSize]
  obtain ⟨m₂, served, _⟩ := served_runs nameUpdate (nameUpdate.carried_of_clean clean fits) 1181 1181 0 [1181]
    (by decide) (by decide) (by decide) (startMem .roundRobin)
  let begin_ : Bench Nat := loneBench fun _ => emptyComs 0
  have update : BenchStep (· = loneServer) (fun _ _ => True) [[110]] 1 begin_ (loneBench m₂.coms) :=
    .update (m := m₂) trivial
  obtain ⟨e₂, run, entered, scored, _⟩ := loneBench_scored (· = loneServer) _ rfl m₂.coms
  refine ⟨m₂, e₂, by rw [scored]; rfl, entered, changed_names_scored nameUpdate clean fits loneServer_fleet ?_ ?_
    (by decide) (by decide) (by decide) (fair_zero 1181 []) .refl served [] (List.forall_mem_nil _)
    (List.forall_mem_nil _) (loneBench_start _) (.single update) rfl run⟩
  · rintro _ rfl
    decide
  · rintro _ rfl
    exact show (0 : UInt8) ≠ 1 by decide

end DnsServer
