import DnsServer.Generator.Bench
import DnsServer.Router.Forwarding
import DnsServer.Scoreboard.ResultsFile

/-! A test from the command line on: the servers that the generator makes, and what its results file says. -/
namespace DnsServer
open Process Program Relation Memory

/-- The server that the generator makes as its `i`th. -/
def createdServer (address : Nat → Bytes) (i : Nat) : Server :=
  createDnsServer (address i) (UInt16.ofNat i) clientPort (dnsPortNum + UInt16.ofNat i)

/-- The servers of a test: those of its start, and the one that it adds midway. -/
def serverTotal (arguments : Arguments) : Nat :=
  arguments.startingServerCnt.toNat + if .addServer ∈ runTest arguments then 1 else 0

def Created (address : Nat → Bytes) (arguments : Arguments) (server : Server) : Prop :=
  ∃ i, i < serverTotal arguments ∧ server = createdServer address i

theorem serverTotal_le (accepted : parseCli options = some (0, arguments)) : serverTotal arguments ≤ 6 := by
  have few := UInt8.le_iff_toNat_le.mp (parseCli_startingServerCnt accepted)
  simp only [UInt8.reduceToNat] at few
  unfold serverTotal
  split <;> omega

/-- While there are few of them, the servers have ports of their own. -/
theorem created_fleet (address : Nat → Bytes) (few : serverTotal arguments ≤ 6) : Fleet (Created address arguments) := by
  constructor
  · rintro _ _ ⟨i, first, rfl⟩ ⟨j, second, rfl⟩ same
    have ports := congrArg UInt16.toNat same
    simp only [createdServer, createDnsServer, UInt16.toNat_add, UInt16.toNat_ofNat',
      show dnsPortNum.toNat = 1053 from rfl] at ports
    have alike : i = j := by omega
    rw [alike]
  · rintro _ ⟨i, _, rfl⟩
    rfl

theorem createServers_rotation (sized : m.router.Sized)
    (ran : Runs (alone error) (createServers address i n) m u m₁) :
    m₁.router.rotation = m.router.rotation ++ (List.range' i n).map (createdServer address) := by
  induction n generalizing m i with
  | zero =>
    obtain ⟨_, rfl⟩ := runs_ret_iff.mp ran
    exact (List.append_nil _).symm
  | succ n ih =>
    obtain ⟨_, _, first, rest⟩ := Runs.split ran
    obtain ⟨sized₁, added, _⟩ := addDnsServer_spec sized first
    rw [ih sized₁ rest, added, List.append_assoc]
    rfl

/-- The generator puts the servers of the command line into the rotation, in order. -/
theorem createGenerator_servers (address : Nat → Bytes)
    (created : Runs (alone error) (createGenerator address arguments) (startMem .roundRobin) () m) :
    m.router.servers = (List.range arguments.startingServerCnt.toNat).map (createdServer address) := by
  have start := createRouter_sized .roundRobin
  have sized := createServers_sized start created
  rw [← sized.rotation_eq, createServers_rotation start created, List.range_eq_range']
  rfl

theorem createGenerator_created (address : Nat → Bytes)
    (created : Runs (alone error) (createGenerator address arguments) (startMem .roundRobin) () m) :
    ∀ server ∈ m.router.servers, Created address arguments server := by
  intro server member
  rw [createGenerator_servers address created] at member
  obtain ⟨i, range, rfl⟩ := List.mem_map.mp member
  exact ⟨i, (List.mem_range.mp range).trans_le (Nat.le_add_right _ _), rfl⟩

/-- What the line of a request says, in its fields: the id, the number of the server that it went to, whether an answer
to it has been scored and whether the table that the latest of these was made from has the name. -/
structure LineOf (address : Nat → Bytes) (arguments : Arguments) (scored : List (UInt16 × Coms)) (fields : List Bytes)
    (s : Sent) : Prop where
  seven : fields.length = 7
  id : fields[1]?.map atoi = some (s.id.toNat : Int)
  server : ∃ i, i < serverTotal arguments ∧ s.server = createdServer address i ∧ fields[2]?.map atoi = some (i : Int)
  unscored : scored.lookup s.id = none → fields[4]?.map atoi = some 0 ∧ fields[6]?.map atoi = some 0
  answered : ∀ coms, scored.lookup s.id = some coms → fields[4]?.map atoi = some 1 ∧
    fields[6]?.map atoi = some (if cString s.domain ∈ coms.table then 1 else 0)

theorem lineOf_row [Zero Time] {r : Results Time} (showTime : Time → Bytes) (few : serverTotal arguments ≤ 6)
    (row : RowOf scored r s) (genuine : Created address arguments s.server) :
    LineOf address arguments scored (resultsFields showTime r) s := by
  obtain ⟨i, range, made⟩ := genuine
  have byte : ∀ b : UInt8, atoi (decimal b.toNat) = b.toNat := fun b => atoi_decimal (by have := b.toNat_lt; omega)
  refine ⟨rfl, ?_, ⟨i, range, made, ?_⟩, ?_, ?_⟩
  · change some (atoi (decimal r.id.toNat)) = _
    have small := r.id.toNat_lt
    rw [atoi_decimal (by omega), row.named]
  · change some (atoi (decimal r.dnsId.toNat)) = _
    have number : r.dnsId.toNat = i := by
      rw [row.dnsId, made, createdServer, createDnsServer, UInt16.toNat_toUInt8, UInt16.toNat_ofNat']
      omega
    rw [byte, number]
  · intro absent
    obtain ⟨recieved, _, found⟩ := row.unscored absent
    change some (atoi (decimal r.recieved.toNat)) = _ ∧ some (atoi (decimal r.found.toNat)) = _
    rw [byte, byte, recieved, found]
    exact ⟨rfl, rfl⟩
  · intro coms here
    obtain ⟨recieved, found⟩ := row.answered coms here
    change some (atoi (decimal r.recieved.toNat)) = _ ∧ some (atoi (decimal r.found.toNat)) = _
    rw [byte, byte, recieved, found]
    refine ⟨rfl, ?_⟩
    split <;> rfl

/-- What holds all along in a test of arguments that are accepted. -/
theorem test_sound [Zero Time] {e e₁ : Bench Time} (accepted : parseCli options = some (0, arguments))
    (address : Nat → Bytes)
    (created : Runs (alone error) (createGenerator address arguments) (startMem .roundRobin) () m)
    (start : BenchStart (fun _ => True) arguments e) (begins : e.mem.router = m.router)
    (run : ReflTransGen (BenchStep (Created address arguments) changes domains domainCnt) e e₁) :
    BenchSound (Created address arguments)
      (HadTable (BenchStep (Created address arguments) changes domains domainCnt) e e₁)
      (sentIds (runTest arguments)) e₁ := by
  have servers : ∀ server ∈ e.mem.router.servers, Created address arguments server := by
    rw [begins]
    exact createGenerator_created address created
  have start : BenchStart (Created address arguments) arguments e := { start with servers }
  refine (bench_sound (created_fleet address (serverTotal_le accepted)) (start.sound fun _ _ => False)
    run).mono _ fun _ _ _ had => had.resolve_left False.elim

/-- The results file has a line for each request that was entered. -/
theorem test_lines [Zero Time] {e : Bench Time} {tables : Sent → Coms → Prop} (showTime : Time → Bytes)
    (plain : ∀ t, Field (showTime t)) (few : serverTotal arguments ≤ 6)
    (sound : BenchSound (Created address arguments) tables ids e) :
    let lines := getLines (resultsText showTime [] (destroyScoreboard e.handler.scoreboard).written)
    List.Forall₂ (LineOf address arguments e.scored) (lines.map (List.splitOn comma)) e.entered ∧
      lines.length = e.entered.length := by
  intro lines
  have split := results_read_back showTime plain (destroyScoreboard e.handler.scoreboard).written
  constructor
  · rw [split, List.forall₂_map_left_iff]
    refine forall₂_imp_mem sound.rows fun r _ s there row => ?_
    exact lineOf_row showTime few row (sound.genuine s (List.mem_append_left _ there))
  · have lengths := congrArg List.length split
    rw [List.length_map, List.length_map] at lengths
    exact lengths.trans sound.rows.length_eq

/-- The results file of a test, read line by line and with each line split at its commas, has a line for each request
that was entered, in the order of their ids from 0 on, however the test goes; what a line says of the name is what the
table had that the server had as it made the answer. -/
theorem accepted_test_file [Zero Time] {e e₁ : Bench Time} (showTime : Time → Bytes)
    (plain : ∀ t, Field (showTime t)) (accepted : parseCli options = some (0, arguments)) (address : Nat → Bytes)
    (created : Runs (alone error) (createGenerator address arguments) (startMem .roundRobin) () m)
    (start : BenchStart (fun _ => True) arguments e) (begins : e.mem.router = m.router)
    (run : ReflTransGen (BenchStep (Created address arguments) changes domains domainCnt) e e₁) :
    let lines := getLines (resultsText showTime [] (destroyScoreboard e₁.handler.scoreboard).written)
    List.Forall₂ (LineOf address arguments e₁.scored) (lines.map (List.splitOn comma)) e₁.entered ∧
      (∀ p ∈ e₁.scored, ∃ s ∈ e₁.entered, s.id = p.1 ∧
        HadTable (BenchStep (Created address arguments) changes domains domainCnt) e e₁ s p.2) ∧
      e₁.enteredIds = (List.range lines.length).map UInt16.ofNat ∧
      (e₁.script = [] → e₁.sending = none → lines.length = testCount arguments) := by
  intro lines
  have sound := test_sound accepted address created start begins run
  obtain ⟨told, count⟩ := test_lines showTime plain (serverTotal_le accepted) sound
  exact ⟨told, sound.scored, count ▸ sound.entered_ids⟩

theorem loneBench_created : Runs (alone 0) (createGenerator (fun _ => []) disableTest) (startMem .roundRobin) ()
    (loneBench fun _ => emptyComs 0).mem :=
  runs_of_run (show run (alone 0) 20 (createGenerator (fun _ => []) disableTest) (startMem .roundRobin) =
    some ((), (loneBench fun _ => emptyComs 0).mem) from rfl)

/-- The first request of a test of one server, whose times are whole numbers. -/
theorem accepted_test_file_first :
    let step : Bench Nat → Bench Nat → Prop := BenchStep (Created (fun _ => []) disableTest) (fun _ _ => True) [[110]] 1
    ∃ e₁ : Bench Nat, e₁.scored = [(0, nameComs)] ∧ e₁.entered = [⟨0, [110], loneServer⟩] ∧
      let lines := getLines (resultsText decimal [] (destroyScoreboard e₁.handler.scoreboard).written)
      List.Forall₂ (LineOf (fun _ => []) disableTest e₁.scored) (lines.map (List.splitOn comma)) e₁.entered ∧
        (∀ p ∈ e₁.scored, ∃ s ∈ e₁.entered, s.id = p.1 ∧ HadTable step (loneBench fun _ => emptyComs 0) e₁ s p.2) ∧
        e₁.enteredIds = (List.range lines.length).map UInt16.ofNat ∧
        (e₁.script = [] → e₁.sending = none → lines.length = testCount disableTest) := by
  intro step
  have accepted : parseCli [.d, .t [120], .c [49]] = some (0, disableTest) := by decide
  let later : UInt16 → Coms := fun _ => nameComs
  have start : BenchStart (fun _ => True) disableTest (loneBench fun _ => emptyComs 0) :=
    ⟨rfl, rfl, rfl, fun _ _ => trivial, rfl, rfl, rfl, rfl, rfl⟩
  have known : Created (fun _ => []) disableTest loneServer :=
    ⟨0, Nat.lt_add_right _ (show 0 < disableTest.startingServerCnt.toNat by decide), rfl⟩
  have update : step (loneBench fun _ => emptyComs 0) (loneBench later) :=
    .update (m := { startMem .roundRobin with coms := later }) trivial
  obtain ⟨e₁, run, entered, scored, _⟩ := loneBench_scored _ (fun _ _ => True) known later
  exact ⟨e₁, scored, entered, accepted_test_file decimal decimal_field accepted (fun _ => []) loneBench_created start
    rfl (.head update run)⟩

end DnsServer
