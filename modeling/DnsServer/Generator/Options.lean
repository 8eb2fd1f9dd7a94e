import DnsServer.Generator.Startup

/-! What comes of a command line: `main` goes on whatever `parse_cli` returns, and its test reads the array of the
servers at fixed places. -/
namespace DnsServer

/-- The arguments that the test is run with, or `none` when there is none: `parse_cli` aborts, or `create_scoreboard`
has no name for its file. -/
def mainArguments (options : List Getopt) : Option Arguments := do
  let (_, arguments) ← parseCli options
  let _ ← resultsFilename arguments.testName
  return arguments

/-! What the options come to. -/

def Getopt.known : Getopt → Bool
  | .unknown _ => false
  | _ => true

def Getopt.testName : Getopt → Option Bytes
  | .t optarg => some optarg
  | _ => none

def Getopt.serverCnt : Getopt → Option UInt8
  | .c optarg => some (UInt8.ofInt (atoi optarg))
  | _ => none

/-- The options up to the first unknown one. -/
def knownOptions (options : List Getopt) : List Getopt := options.takeWhile Getopt.known

/-- The last option of a kind decides. -/
def lastOf (f : Getopt → Option α) (options : List Getopt) : Option α := (options.filterMap f).getLast?

/-- What the options say, on top of the arguments before them. -/
structure Orders (options : List Getopt) (before after : Arguments) : Prop where
  testName : after.testName = (lastOf Getopt.testName options).or before.testName
  startingServerCnt : after.startingServerCnt = (lastOf Getopt.serverCnt options).getD before.startingServerCnt
  addMidway : after.addMidway = true ↔ .a ∈ options ∨ before.addMidway = true
  randomlyDisable : after.randomlyDisable = true ↔ .d ∈ options ∨ before.randomlyDisable = true
  makeTranslationChanges : after.makeTranslationChanges = true ↔ .x ∈ options ∨ before.makeTranslationChanges = true
  failTranslationChanges : after.failTranslationChanges = true ↔ .f ∈ options ∨ before.failTranslationChanges = true

theorem orders_nil (arguments : Arguments) : Orders [] arguments arguments := by
  constructor <;> simp [lastOf]

theorem lastOf_append (f : Getopt → Option α) (first second : List Getopt) :
    lastOf f (first ++ second) = (lastOf f second).or (lastOf f first) := by
  rw [lastOf, List.filterMap_append, List.getLast?_append]
  rfl

/-- Some options, and then others. -/
theorem Orders.append (first : Orders options before middle) (second : Orders options₁ middle after) :
    Orders (options ++ options₁) before after where
  testName := by rw [second.testName, first.testName, lastOf_append, Option.or_assoc]
  startingServerCnt := by
    rw [second.startingServerCnt, first.startingServerCnt, lastOf_append]
    cases lastOf Getopt.serverCnt options₁ <;> rfl
  addMidway := by
    rw [second.addMidway, first.addMidway, List.mem_append, or_left_comm, or_assoc]
  randomlyDisable := by
    rw [second.randomlyDisable, first.randomlyDisable, List.mem_append, or_left_comm, or_assoc]
  makeTranslationChanges := by
    rw [second.makeTranslationChanges, first.makeTranslationChanges, List.mem_append, or_left_comm, or_assoc]
  failTranslationChanges := by
    rw [second.failTranslationChanges, first.failTranslationChanges, List.mem_append, or_left_comm, or_assoc]

/-- Too many servers are asked for. -/
def Excessive (options : List Getopt) : Prop := ∃ cnt ∈ options.filterMap Getopt.serverCnt, cnt > 5

theorem excessive_cons (option : Getopt) (options : List Getopt) :
    Excessive (option :: options) ↔ (∃ cnt, option.serverCnt = some cnt ∧ cnt > 5) ∨ Excessive options := by
  unfold Excessive
  cases here : option.serverCnt with
  | none =>
    rw [List.filterMap_cons_none here]
    simp
  | some cnt =>
    rw [List.filterMap_cons_some here]
    simp

theorem orders_one (option : Getopt) (known : option.known = true) (before : Arguments) :
    (∃ cnt, option.serverCnt = some cnt ∧ cnt > 5 ∧ ∀ rest, parseOptions (option :: rest) before = none) ∨
    ∃ middle, (∀ cnt, option.serverCnt = some cnt → ¬ cnt > 5) ∧ Orders [option] before middle ∧
      ∀ rest, parseOptions (option :: rest) before = parseOptions rest middle := by
  cases option with
  | c optarg =>
    by_cases many : UInt8.ofInt (atoi optarg) > 5
    · exact .inl ⟨_, rfl, many, fun rest => if_pos (.inr many)⟩
    · refine .inr ⟨{ before with startingServerCnt := UInt8.ofInt (atoi optarg) }, ?_, ?_, fun rest => ?_⟩
      · rintro _ ⟨⟩
        exact many
      · constructor <;> simp [lastOf, Getopt.testName, Getopt.serverCnt]
      · exact if_neg fun range => range.elim (fun low => absurd low UInt8.not_lt_zero) many
  | unknown optopt => cases known
  | _ =>
    refine .inr ⟨_, ?_, ?_, fun rest => rfl⟩
    · rintro _ ⟨⟩
    · constructor <;> simp [lastOf, Getopt.testName, Getopt.serverCnt]

/-- The loop reads the options up to the first unknown one, and aborts at a count that is out of range. -/
theorem parseOptions_orders (options : List Getopt) (before : Arguments) :
    (Excessive (knownOptions options) ∧ parseOptions options before = none) ∨
    ∃ after, ¬ Excessive (knownOptions options) ∧ Orders (knownOptions options) before after ∧
      parseOptions options before = some (if options.all Getopt.known then 0 else 1, after) := by
  induction options generalizing before with
  | nil => exact .inr ⟨before, by simp [Excessive, knownOptions], orders_nil before, rfl⟩
  | cons option rest ih =>
    cases known : option.known with
    | false =>
      cases option with
      | unknown optopt =>
        refine .inr ⟨before, ?_, ?_, rfl⟩
        · simp [Excessive, knownOptions, known]
        · rw [knownOptions, List.takeWhile_cons_of_neg (by simp [known])]
          exact orders_nil before
      | _ => cases known
    | true =>
      have more : knownOptions (option :: rest) = option :: knownOptions rest := List.takeWhile_cons_of_pos known
      rw [more, excessive_cons, List.all_cons, known, Bool.true_and]
      rcases orders_one option known before with ⟨cnt, here, many, stops⟩ | ⟨middle, few, first, goes⟩
      · exact .inl ⟨.inl ⟨cnt, here, many⟩, stops rest⟩
      · rw [goes rest]
        rcases ih middle with ⟨many, stops⟩ | ⟨after, fine, orders, parsed⟩
        · exact .inl ⟨.inr many, stops⟩
        · refine .inr ⟨after, ?_, first.append orders, parsed⟩
          rintro (⟨cnt, here, many⟩ | many)
          · exact few cnt here many
          · exact fine many

theorem Orders.few (orders : Orders options ⟨none, 3, false, false, false, false⟩ after) (fine : ¬ Excessive options) :
    after.startingServerCnt.toNat ≤ 5 := by
  rw [orders.startingServerCnt]
  cases last : lastOf Getopt.serverCnt options with
  | none => exact show (3 : UInt8).toNat ≤ 5 by decide
  | some cnt =>
    by_contra many
    refine fine ⟨cnt, List.mem_of_getLast? last, ?_⟩
    rw [gt_iff_lt, UInt8.lt_iff_toNat_lt]
    exact Nat.not_le.mp many

/-! The test on its array of servers. -/

/-- A place of the array is `none` until a server has been stored there. -/
structure Generator where
  dnsServers : List (Option Server)
  dnsServerCnt : UInt8

/-- The server behind `dns_servers[i]`, if there is one. -/
def Generator.dnsServer (g : Generator) (i : Int) : Option Server :=
  if i < 0 then none else (g.dnsServers[i.toNat]?).join

/-- What a step does with the array, or `none` when it looks outside. The threads that it starts see the array as the
step does. -/
def TestStep.perform (address : Nat → Bytes) (g : Generator) : TestStep → Option Generator
  -- Without any server `forward_request` divides by zero.
  | .sendSingleTest _ => if g.dnsServerCnt = 0 then none else some g
  | .pause => do
    let _ ← g.dnsServer (g.dnsServerCnt.toNat - 1)
    return g
  | .addServer =>
    let dnsServerCnt := g.dnsServerCnt + 1
    let cnt := dnsServerCnt.toNat
    let dnsServers := g.dnsServers.take cnt ++ List.replicate (cnt - g.dnsServers.length) none
    if cnt = 0 then none
    else some ⟨dnsServers.set (cnt - 1) (some (createdServer address (cnt - 1))), dnsServerCnt⟩
  | .addHosts | .removeHosts => do
    let _ ← g.dnsServer 0
    return g
  | .addHostsFail => do
    let _ ← g.dnsServer 0
    let _ ← g.dnsServer 1
    return g

def destroyGenerator (g : Generator) : Option Unit :=
  (List.range g.dnsServerCnt.toNat).forM fun i => (g.dnsServer i).map fun _ => ()

/-- The test from the servers of the command line to the end of `destroy_generator`, while no server is taken out of the
rotation. -/
def performTest (address : Nat → Bytes) (arguments : Arguments) : Option Unit := do
  let cnt := arguments.startingServerCnt
  let g ← (runTest arguments).foldlM (TestStep.perform address)
    ⟨(List.range cnt.toNat).map fun i => some (createdServer address i), cnt⟩
  destroyGenerator g

/-- The steps of a test other than its requests. -/
def changes (script : List TestStep) : List TestStep := script.filter (·.id.isNone)

/-- The fewest servers that the test can do with. -/
def fewestServers (arguments : Arguments) : Nat :=
  if arguments.randomlyDisable then 1
  else if arguments.addMidway then 1
  else if arguments.makeTranslationChanges then 1
  else if arguments.failTranslationChanges then 2
  else 0

theorem perform_positive {g g₁ : Generator} {step : TestStep} (positive : g.dnsServerCnt ≠ 0)
    (performed : step.perform address g = some g₁) : g₁.dnsServerCnt ≠ 0 := by
  cases step with
  | sendSingleTest id =>
    rw [TestStep.perform, if_neg positive] at performed
    cases performed
    exact positive
  | addServer =>
    simp only [TestStep.perform] at performed
    split at performed
    · cases performed
    · next some_ =>
      cases performed
      exact fun zero => some_ (congrArg UInt8.toNat zero)
  | _ =>
    simp only [TestStep.perform, Option.bind_eq_bind, Option.bind_eq_some_iff, Option.pure_def, Option.some.injEq]
      at performed
    obtain ⟨_, _, performed⟩ := performed
    first
    | subst performed; exact positive
    | obtain ⟨_, _, rfl⟩ := performed; exact positive

/-- When there is a server, requests leave the array alone. -/
theorem perform_changes (address : Nat → Bytes) (script : List TestStep) (g : Generator)
    (positive : g.dnsServerCnt ≠ 0) :
    (changes script).foldlM (TestStep.perform address) g = script.foldlM (TestStep.perform address) g := by
  unfold changes
  induction script generalizing g with
  | nil => rfl
  | cons step script ih =>
    rw [List.foldlM_cons]
    cases request : step.id with
    | none =>
      rw [List.filter_cons_of_pos (by rw [request]; rfl), List.foldlM_cons]
      cases performed : TestStep.perform address g step with
      | none => rfl
      | some g₁ => exact ih g₁ (perform_positive positive performed)
    | some id =>
      rw [List.filter_cons_of_neg (by rw [request]; exact Bool.false_ne_true), ih g positive]
      cases step with
      | sendSingleTest id =>
        rw [TestStep.perform, if_neg positive]
        rfl
      | _ => cases request

theorem testRounds_head {step : Nat} (after : Nat → List TestStep) (some_ : 0 < step) :
    ∃ rest, testRounds step after 0 = .sendSingleTest 0 :: rest := by
  obtain ⟨k, rfl⟩ := Nat.exists_eq_add_of_le' some_
  rw [testRounds, dif_pos ⟨by decide, some_⟩, List.range_succ_eq_map]
  exact ⟨_, rfl⟩

/-- A test that does anything begins with a request. -/
theorem runTest_head (arguments : Arguments) :
    runTest arguments = [] ∧ fewestServers arguments = 0 ∨
      (∃ rest, runTest arguments = .sendSingleTest 0 :: rest) ∧ 0 < fewestServers arguments := by
  unfold runTest fewestServers
  split
  · exact .inr ⟨testRounds_head _ (by decide), by decide⟩
  split
  · exact .inr ⟨testRounds_head _ (by decide), by decide⟩
  split
  · exact .inr ⟨testRounds_head _ (by decide), by decide⟩
  split
  · exact .inr ⟨testRounds_head _ (by decide), by decide⟩
  · exact .inl ⟨rfl, rfl⟩

theorem changes_append (first second : List TestStep) : changes (first ++ second) = changes first ++ changes second :=
  List.filter_append _ _

theorem changes_testRounds {step : Nat} (after : Nat → List TestStep) (more : i < 0x8FF ∧ 0 < step) :
    changes (testRounds step after i) = changes (after i) ++ changes (testRounds step after (i + step)) := by
  have requests : changes ((List.range step).map fun j => .sendSingleTest (UInt16.ofNat (j + i))) = [] := by
    rw [changes, List.filter_eq_nil_iff]
    rintro _ member
    obtain ⟨j, _, rfl⟩ := List.mem_map.mp member
    exact Bool.false_ne_true
  rw [testRounds, dif_pos more, changes_append, changes_append, requests, List.nil_append]

theorem changes_quiet {step : Nat} (after : Nat → List TestStep) (i : Nat) (quiet : ∀ j, i ≤ j → after j = []) :
    changes (testRounds step after i) = [] := by
  induction i using testRounds.induct step with
  | case1 i more ih =>
    rw [changes_testRounds after more, quiet i le_rfl, ih fun j later => quiet j (by omega)]
    rfl
  | case2 i less =>
    rw [testRounds, dif_neg less]
    rfl

/-- The one change of a test that makes it after its first block. -/
theorem changes_first {step : Nat} (change : TestStep) (changing : change.id = none) (some_ : 0 < step) :
    changes (testRounds step (fun i => if i = 0 then [change] else []) 0) = [change] := by
  rw [changes_testRounds _ ⟨by decide, some_⟩, changes_quiet _ _ fun j later => if_neg (by omega), if_pos rfl,
    List.append_nil, changes, List.filter_cons_of_pos (by rw [changing]; rfl)]
  rfl

theorem changes_runTest (arguments : Arguments) : changes (runTest arguments) =
    if arguments.randomlyDisable then [.pause]
    else if arguments.addMidway then [.addServer]
    else if arguments.makeTranslationChanges then [.addHosts, .removeHosts]
    else if arguments.failTranslationChanges then [.addHostsFail]
    else [] := by
  unfold runTest
  cases arguments.randomlyDisable with
  | true => exact changes_first .pause rfl (by decide)
  | false =>
  cases arguments.addMidway with
  | true => exact changes_first .addServer rfl (by decide)
  | false =>
  cases arguments.makeTranslationChanges with
  | true =>
    simp only [Bool.false_eq_true, if_false, if_true]
    rw [changes_testRounds _ (by decide), changes_testRounds _ (by decide), changes_testRounds _ (by decide),
      changes_quiet]
    · rfl
    · intro j later
      rw [if_neg (by omega), if_neg (by omega)]
      rfl
  | false =>
  cases arguments.failTranslationChanges with
  | true => exact changes_first .addHostsFail rfl (by decide)
  | false => rfl

/-- Every place of the array holds a server. -/
def Generator.Stored (g : Generator) (servers : List Server) : Prop :=
  g.dnsServers = servers.map some ∧ g.dnsServerCnt.toNat = servers.length

theorem Generator.Stored.dnsServer {g : Generator} (stored : g.Stored servers) (i : Nat) :
    g.dnsServer i = servers[i]? := by
  rw [Generator.dnsServer, if_neg (by omega), stored.1, Int.toNat_natCast, List.getElem?_map]
  cases servers[i]? <;> rfl

theorem destroyGenerator_stored {g : Generator} (stored : g.Stored servers) : destroyGenerator g = some () := by
  have inside : ∀ i ∈ List.range g.dnsServerCnt.toNat, (g.dnsServer i).map (fun _ => ()) = some () := by
    intro i member
    rw [stored.2, List.mem_range] at member
    rw [stored.dnsServer, List.getElem?_eq_getElem member]
    rfl
  rw [destroyGenerator]
  generalize List.range g.dnsServerCnt.toNat = places at inside
  induction places with
  | nil => rfl
  | cons i places ih =>
    obtain ⟨first, rest⟩ := List.forall_mem_cons.mp inside
    change ((g.dnsServer i).map (fun _ => ())).bind (fun _ => places.forM _) = _
    rw [first]
    exact ih rest

/-- One more server is stored. -/
theorem perform_addServer {g : Generator} (stored : g.Stored servers) (few : servers.length < 255)
    (address : Nat → Bytes) :
    ∃ g₁, TestStep.perform address g .addServer = some g₁ ∧
      g₁.Stored (servers ++ [createdServer address servers.length]) := by
  have more : (g.dnsServerCnt + 1).toNat = servers.length + 1 := by
    rw [UInt8.toNat_add, stored.2]
    exact Nat.mod_eq_of_lt (by change servers.length + 1 < 256; omega)
  have length : g.dnsServers.length = servers.length := by rw [stored.1, List.length_map]
  refine ⟨_, if_neg (by rw [more]; omega), ?_, by rw [more, List.length_append]; rfl⟩
  simp only [more, length, Nat.add_sub_cancel_left, Nat.add_sub_cancel]
  rw [List.take_of_length_le (by omega), List.set_append_right _ _ (by omega), length, Nat.sub_self, stored.1,
    List.map_append]
  rfl

/-- A step that looks at a place goes on when there is a server. -/
theorem looks_iff {g : Generator} (stored : g.Stored servers) (i : Nat) (after : Option α) :
    ((g.dnsServer i).bind fun _ => after).isSome ↔ i < servers.length ∧ after.isSome := by
  rw [stored.dnsServer]
  by_cases inside : i < servers.length
  · rw [List.getElem?_eq_getElem inside]
    exact (and_iff_right inside).symm
  · rw [List.getElem?_eq_none (Nat.not_lt.mp inside)]
    exact iff_of_false Bool.false_ne_true fun both => inside both.1

/-- Without a server only a test that does nothing goes through. -/
theorem performTest_empty (address : Nat → Bytes) (arguments : Arguments) (empty : arguments.startingServerCnt = 0) :
    (performTest address arguments).isSome ↔ fewestServers arguments = 0 := by
  let g : Generator := ⟨(List.range arguments.startingServerCnt.toNat).map fun i => some (createdServer address i),
    arguments.startingServerCnt⟩
  rcases runTest_head arguments with ⟨nothing, none⟩ | ⟨⟨rest, request⟩, some_⟩
  · have stored : g.Stored [] := by
      constructor
      · simp only [g, empty]
        rfl
      · simp only [g, empty]
        rfl
    have run : performTest address arguments = destroyGenerator g := by
      rw [performTest, nothing]
      rfl
    rw [run, destroyGenerator_stored stored]
    exact iff_of_true rfl none
  · have stops : TestStep.perform address g (.sendSingleTest 0) = none := if_pos empty
    have run : performTest address arguments = none := by
      change ((runTest arguments).foldlM (TestStep.perform address) g).bind destroyGenerator = none
      rw [request, List.foldlM_cons, stops]
      rfl
    rw [run]
    exact iff_of_false Bool.false_ne_true some_.ne'

/-- The test goes through, and looks at its servers only, just when there are as many as it needs. -/
theorem performTest_iff (address : Nat → Bytes) (arguments : Arguments)
    (few : arguments.startingServerCnt.toNat ≤ 5) :
    (performTest address arguments).isSome ↔ fewestServers arguments ≤ arguments.startingServerCnt.toNat := by
  by_cases empty : arguments.startingServerCnt = 0
  · rw [performTest_empty address arguments empty, empty]
    exact Nat.le_zero.symm
  let servers := (List.range arguments.startingServerCnt.toNat).map (createdServer address)
  let g : Generator := ⟨(List.range arguments.startingServerCnt.toNat).map fun i => some (createdServer address i),
    arguments.startingServerCnt⟩
  have length : servers.length = arguments.startingServerCnt.toNat := by rw [List.length_map, List.length_range]
  have stored : g.Stored servers := ⟨by rw [List.map_map]; rfl, length.symm⟩
  have ends : (destroyGenerator g).isSome := by rw [destroyGenerator_stored stored]; rfl
  have positive : 0 < servers.length := by
    rw [length]
    exact Nat.pos_of_ne_zero fun zero => empty (UInt8.toNat_inj.mp zero)
  have run : performTest address arguments =
      ((changes (runTest arguments)).foldlM (TestStep.perform address) g).bind destroyGenerator := by
    rw [perform_changes address (runTest arguments) g empty]
    rfl
  have zero : ∀ after : Option Unit, ((g.dnsServer 0).bind fun _ => after).isSome ↔ 0 < servers.length ∧ after.isSome :=
    looks_iff stored 0
  have one : ∀ after : Option Unit, ((g.dnsServer 1).bind fun _ => after).isSome ↔ 1 < servers.length ∧ after.isSome :=
    looks_iff stored 1
  rw [run, changes_runTest, fewestServers, ← length]
  split
  · -- The last server is paused.
    obtain ⟨k, count⟩ := Nat.exists_eq_add_of_le' positive
    have last : ((g.dnsServerCnt.toNat : Nat) : Int) - 1 = (k : Nat) := by
      rw [stored.2, count]
      omega
    have looks := looks_iff stored k (destroyGenerator g)
    simp only [List.foldlM_cons, List.foldlM_nil, TestStep.perform, last, Option.bind_eq_bind, Option.pure_def,
      Option.bind_assoc, Option.bind_some] at looks ⊢
    rw [looks]
    exact iff_of_true ⟨by omega, ends⟩ positive
  split
  · obtain ⟨g₁, added, stored₁⟩ := perform_addServer stored (by omega) address
    simp only [List.foldlM_cons, List.foldlM_nil, added, Option.bind_eq_bind, Option.pure_def, Option.bind_some]
    rw [destroyGenerator_stored stored₁]
    exact iff_of_true rfl positive
  split
  · simp only [List.foldlM_cons, List.foldlM_nil, TestStep.perform, Option.bind_eq_bind, Option.pure_def,
      Option.bind_assoc, Option.bind_some]
    rw [zero, zero, and_iff_left ends, and_self]
    exact Iff.rfl
  split
  · simp only [List.foldlM_cons, List.foldlM_nil, TestStep.perform, Option.bind_eq_bind, Option.pure_def,
      Option.bind_assoc, Option.bind_some]
    rw [zero, one, and_iff_left ends]
    omega
  · exact iff_of_true ends (Nat.zero_le _)

theorem mainArguments_eq (options : List Getopt) :
    mainArguments options = (parseOptions options ⟨none, 3, false, false, false, false⟩).bind fun parsed =>
      if parsed.2.testName = none then none else some parsed.2 := by
  unfold mainArguments parseCli
  cases parseOptions options ⟨none, 3, false, false, false, false⟩ with
  | none => rfl
  | some parsed =>
    obtain ⟨error, arguments⟩ := parsed
    by_cases fine : error = 0
    · cases name : arguments.testName with
      | none => simp [fine, name]
      | some testName => simp [fine, name, resultsFilename]
    · cases name : arguments.testName with
      | none => simp [fine, name, resultsFilename]
      | some testName => simp [fine, name, resultsFilename]

/-- What `main` does with any command line. It runs no test just when a count is out of range, or when none of the
options before the first unknown one names the test; with an unknown option it runs one all the same. The last name
and the last count stand, and the test goes through just when it starts with as many servers as it needs. -/
theorem main_runs (options : List Getopt) :
    (mainArguments options = none ↔
      Excessive (knownOptions options) ∨ lastOf Getopt.testName (knownOptions options) = none) ∧
    ∀ arguments, mainArguments options = some arguments →
      Orders (knownOptions options) ⟨none, 3, false, false, false, false⟩ arguments ∧
      ∀ address, (performTest address arguments).isSome ↔
        fewestServers arguments ≤ arguments.startingServerCnt.toNat := by
  rw [mainArguments_eq]
  rcases parseOptions_orders options ⟨none, 3, false, false, false, false⟩ with
    ⟨many, stops⟩ | ⟨after, fine, orders, parsed⟩
  · rw [stops]
    refine ⟨iff_of_true rfl (.inl many), ?_⟩
    rintro _ ⟨⟩
  · rw [parsed, Option.bind_some]
    have named : after.testName = lastOf Getopt.testName (knownOptions options) := by
      rw [orders.testName, Option.or_none]
    simp only
    refine ⟨?_, fun arguments same => ?_⟩
    · rw [or_iff_right fine, ← named]
      split
      · next missing => exact iff_of_true rfl missing
      · next there => exact iff_of_false (Option.some_ne_none _) there
    · split at same
      · cases same
      · cases same
        exact ⟨orders, fun address => performTest_iff address after (orders.few fine)⟩

end DnsServer
