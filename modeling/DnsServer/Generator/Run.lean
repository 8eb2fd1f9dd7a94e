import DnsServer.Cli

/-! The tests that the generator runs: which requests it sends, and what it changes on the way. -/
namespace DnsServer

/-- What the generator's thread does besides sleeping. -/
inductive TestStep where
  | sendSingleTest (id : UInt16)
  /-- The last server stops answering queries. -/
  | pause
  /-- One more server is created, and a thread brings it online. -/
  | addServer
  /-- A thread with `add_hosts_wrapper`, `remove_hosts_wrapper` or `add_hosts_fail_wrapper` is started. -/
  | addHosts
  | removeHosts
  | addHostsFail
  deriving DecidableEq

/-- The loops over `i` and `j` of a test: blocks of requests, `step` of them each, and what is done after each. -/
def testRounds (step : Nat) (after : Nat → List TestStep) (i : Nat) : List TestStep :=
  if _more : i < 0x8FF ∧ 0 < step then
    (List.range step).map (fun j => .sendSingleTest (UInt16.ofNat (j + i))) ++ after i ++
      testRounds step after (i + step)
  else []
termination_by 0x8FF - i

def runTest (arguments : Arguments) : List TestStep :=
  if arguments.randomlyDisable then testRounds 0xFF (fun i => if i = 0 then [.pause] else []) 0
  else if arguments.addMidway then testRounds 0xFF (fun i => if i = 0 then [.addServer] else []) 0
  else if arguments.makeTranslationChanges then
    testRounds 0x100 (fun i => (if i = 0 then [.addHosts] else []) ++ if i = 0x200 then [.removeHosts] else []) 0
  else if arguments.failTranslationChanges then testRounds 0x100 (fun i => if i = 0 then [.addHostsFail] else []) 0
  else []

def TestStep.id : TestStep → Option UInt16
  | .sendSingleTest id => some id
  | _ => none

/-- The ids of the requests, in the order of sending. -/
def sentIds (script : List TestStep) : List UInt16 := script.filterMap TestStep.id

/-- How many requests the test sends. -/
def testCount (arguments : Arguments) : Nat :=
  if arguments.randomlyDisable ∨ arguments.addMidway then 2550
  else if arguments.makeTranslationChanges ∨ arguments.failTranslationChanges then 2304
  else 0

theorem sentIds_block (step i : Nat) :
    sentIds ((List.range step).map fun j => .sendSingleTest (UInt16.ofNat (j + i))) =
      (List.range' i step).map UInt16.ofNat := by
  rw [sentIds, List.filterMap_map, List.range'_eq_map_range, List.map_map, ← List.filterMap_eq_map]
  apply List.filterMap_congr
  intro j _
  change some (UInt16.ofNat (j + i)) = some (UInt16.ofNat (i + j))
  rw [Nat.add_comm]

/-- As the step is the length of a block, the ids go on without a gap, to the end of the last block that begins
before the bound. -/
theorem sentIds_testRounds {step k : Nat} (after : Nat → List TestStep) (quiet : ∀ i, sentIds (after i) = [])
    (some_ : 0 < step) (i : Nat) (enough : 0x8FF ≤ i + step * k) (tight : k = 0 ∨ i + step * k < 0x8FF + step) :
    sentIds (testRounds step after i) = (List.range' i (step * k)).map UInt16.ofNat := by
  induction k generalizing i with
  | zero =>
    rw [testRounds, dif_neg (by omega)]
    rfl
  | succ k ih =>
    rw [Nat.mul_succ] at enough tight
    rw [testRounds, dif_pos (by omega), sentIds, List.filterMap_append, List.filterMap_append]
    have block := sentIds_block step i
    have rest := ih (i + step) (by omega) (by omega)
    have nothing := quiet i
    unfold sentIds at block rest nothing
    rw [block, nothing, rest, List.append_nil, ← List.map_append, Nat.mul_succ, Nat.add_comm (step * k),
      List.range'_append_1]

/-- In every test the ids count up from 0. -/
theorem sentIds_runTest (arguments : Arguments) :
    sentIds (runTest arguments) = (List.range (testCount arguments)).map UInt16.ofNat := by
  rw [List.range_eq_range']
  unfold runTest testCount
  cases arguments.randomlyDisable with
  | true => exact sentIds_testRounds (k := 10) _ (fun i => by split <;> rfl) (by decide) 0 (by decide) (by decide)
  | false =>
  cases arguments.addMidway with
  | true => exact sentIds_testRounds (k := 10) _ (fun i => by split <;> rfl) (by decide) 0 (by decide) (by decide)
  | false =>
  cases arguments.makeTranslationChanges with
  | true =>
    refine sentIds_testRounds (k := 9) _ (fun i => ?_) (by decide) 0 (by decide) (by decide)
    by_cases first : i = 0
    · subst first
      rfl
    · rw [if_neg first]
      split <;> rfl
  | false =>
  cases arguments.failTranslationChanges with
  | true => exact sentIds_testRounds (k := 9) _ (fun i => by split <;> rfl) (by decide) 0 (by decide) (by decide)
  | false => rfl

theorem testCount_le (arguments : Arguments) : testCount arguments ≤ 2550 := by
  unfold testCount
  split
  · exact le_rfl
  · split <;> omega

/-- No id comes twice, and none is that of a ping. -/
theorem sentIds_distinct (arguments : Arguments) :
    (sentIds (runTest arguments)).Nodup ∧ ∀ id ∈ sentIds (runTest arguments), id.toNat < 0x8000 := by
  have bound := testCount_le arguments
  rw [sentIds_runTest]
  constructor
  · refine List.Nodup.map_on ?_ List.nodup_range
    intro i first j second same
    have values := congrArg UInt16.toNat same
    rw [List.mem_range] at first second
    rw [UInt16.toNat_ofNat', UInt16.toNat_ofNat'] at values
    omega
  · intro id member
    obtain ⟨i, range, rfl⟩ := List.mem_map.mp member
    rw [List.mem_range] at range
    rw [UInt16.toNat_ofNat']
    omega

end DnsServer
