import DnsServer.Router.Programs

/-! The command line and the start of a run. -/
namespace DnsServer
open Process

structure Arguments where
  testName : Option Bytes
  startingServerCnt : UInt8
  randomlyDisable : Bool
  addMidway : Bool
  makeTranslationChanges : Bool
  failTranslationChanges : Bool
  deriving DecidableEq

/-- One result of `getopt` for the options of this program. -/
inductive Getopt where
  | a
  | d
  | x
  | f
  | t (optarg : Bytes)
  | c (optarg : Bytes)
  | unknown (optopt : UInt8)

def isSpace (b : UInt8) : Bool := b = 32 || (9 ≤ b && b ≤ 13)

def isDigit (b : UInt8) : Bool := 48 ≤ b && b ≤ 57

def digits (text : Bytes) : Nat :=
  (text.takeWhile isDigit).foldl (fun value b => 10 * value + (b.toNat - 48)) 0

/-- The number that the text begins with, or the bound of a `long` that it exceeds. -/
def strtol (text : Bytes) : Int :=
  let value : Int :=
    match text.dropWhile isSpace with
    | 45 :: rest => -(digits rest : Int)
    | 43 :: rest => digits rest
    | rest => digits rest
  max (-9223372036854775808) (min 9223372036854775807 value)

def atoi (text : Bytes) : Int := (Int32.ofInt (strtol text)).toInt

/-- The loop over the options: the error code, or `none` when it aborts. The count is
narrowed to a byte before it is checked. -/
def parseOptions : List Getopt → Arguments → Option (UInt8 × Arguments)
  | [], arguments => some (0, arguments)
  | .a :: rest, arguments => parseOptions rest { arguments with addMidway := true }
  | .d :: rest, arguments => parseOptions rest { arguments with randomlyDisable := true }
  | .x :: rest, arguments => parseOptions rest { arguments with makeTranslationChanges := true }
  | .f :: rest, arguments => parseOptions rest { arguments with failTranslationChanges := true }
  | .t optarg :: rest, arguments => parseOptions rest { arguments with testName := some optarg }
  | .c optarg :: rest, arguments =>
    let arguments := { arguments with startingServerCnt := UInt8.ofInt (atoi optarg) }
    if arguments.startingServerCnt < 0 ∨ arguments.startingServerCnt > 5 then none
    else parseOptions rest arguments
  | .unknown _ :: _, arguments => some (1, arguments)

def parseCli (options : List Getopt) : Option (UInt8 × Arguments) := do
  let (error, arguments) ← parseOptions options ⟨none, 3, false, false, false, false⟩
  if error ≠ 0 then return (error, arguments)
  if arguments.testName.isNone then none
  else return (0, arguments)

def dnsPortNum : UInt16 := 1053
def clientPort : UInt16 := 1050

/-- The loop that creates `n` servers, from the `i`th on, and puts them in rotation.
`address` is where each is allocated. -/
def createServers (address : Nat → Bytes) (i : Nat) : Nat → Proc Unit
  | 0 => return
  | n + 1 => do
    let dns := createDnsServer (address i) (UInt16.ofNat i) clientPort (dnsPortNum + UInt16.ofNat i)
    let _ ← addDnsServer dns
    createServers address (i + 1) n

def createGenerator (address : Nat → Bytes) (arguments : Arguments) : Proc Unit :=
  createServers address 0 arguments.startingServerCnt.toNat

theorem parseOptions_startingServerCnt (small : arguments.startingServerCnt ≤ 5)
    (parsed : parseOptions options arguments = some (0, result)) :
    result.startingServerCnt ≤ 5 := by
  induction options generalizing arguments with
  | nil =>
    cases parsed
    exact small
  | cons option rest ih =>
    cases option with
    | a => exact ih (by exact small) parsed
    | d => exact ih (by exact small) parsed
    | x => exact ih (by exact small) parsed
    | f => exact ih (by exact small) parsed
    | t optarg => exact ih (by exact small) parsed
    | c optarg =>
      simp only [parseOptions] at parsed
      split at parsed
      · cases parsed
      · next range => exact ih (UInt8.not_lt.mp (not_or.mp range).2) parsed
    | unknown optopt => cases parsed

/-- An accepted command line starts at most five servers. -/
theorem parseCli_startingServerCnt (parsed : parseCli options = some (0, arguments)) :
    arguments.startingServerCnt ≤ 5 := by
  simp only [parseCli, Option.bind_eq_bind, Option.bind_eq_some_iff] at parsed
  obtain ⟨⟨error, result⟩, options, parsed⟩ := parsed
  split at parsed
  · next failed =>
    cases parsed
    exact absurd rfl failed
  · next succeeded =>
    split at parsed
    · cases parsed
    · cases parsed
      have start : (⟨none, 3, false, false, false, false⟩ : Arguments).startingServerCnt ≤ 5 := by
        decide
      have noError : error = 0 := not_not.mp succeeded
      subst noError
      exact parseOptions_startingServerCnt start options

end DnsServer
