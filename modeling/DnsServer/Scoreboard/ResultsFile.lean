import DnsServer.Coms.HostsFile
import DnsServer.Scoreboard

/-! The text of the results file: a line of fields for each row. -/
namespace DnsServer
variable {Time : Type}

def comma : UInt8 := 44

/-- The name of the file that `create_scoreboard` opens. There is no `std::string` of a null pointer. -/
def resultsFilename (testname : Option Bytes) : Option Bytes :=
  -- "_results.csv"
  testname.map (· ++ [95, 114, 101, 115, 117, 108, 116, 115, 46, 99, 115, 118])

/-- What the format prints; `showTime` is its `%.6f`. -/
def resultsFields (showTime : Time → Bytes) (r : Results Time) : List Bytes :=
  [showTime r.startTime, decimal r.id.toNat, decimal r.dnsId.toNat, decimal r.rrlRemoved.toNat,
    decimal r.recieved.toNat, showTime r.finishTime, decimal r.found.toNat]

/-- The code is 1 when something has been printed. -/
def writeResults (showTime : Time → Bytes) (file : Bytes) (results : Results Time) : UInt8 × Bytes :=
  let row := [comma].intercalate (resultsFields showTime results) ++ [10]
  (if 0 < row.length then 1 else 0, file ++ row)

/-- The rows that are written one after the other. -/
def resultsText (showTime : Time → Bytes) (file : Bytes) (rows : List (Results Time)) : Bytes :=
  rows.foldl (fun file results => (writeResults showTime file results).2) file

/-- A text that can be a field of a line. -/
structure Field (text : Bytes) : Prop where
  noComma : comma ∉ text
  noNewline : 10 ∉ text

/-- A decimal ends in its last digit. -/
theorem decimal_concat (n : Nat) :
    decimal n = (if 10 ≤ n then decimal (n / 10) else []) ++ [UInt8.ofNat (48 + n % 10)] := by
  have last : n % 10 < 10 := Nat.mod_lt n (by decide)
  rw [decimal, Nat.toDigits_eq_if (by decide)]
  by_cases more : 10 ≤ n
  · rw [if_neg (Nat.not_lt.mpr more), if_pos more, List.map_append, List.map_singleton,
      Nat.toNat_digitChar_of_lt_ten last]
    rfl
  · have small := Nat.not_le.mp more
    rw [if_pos small, if_neg more, List.map_singleton, Nat.toNat_digitChar_of_lt_ten small, Nat.mod_eq_of_lt small,
      List.nil_append]

theorem toNat_digit (n : Nat) : (UInt8.ofNat (48 + n % 10)).toNat = 48 + n % 10 := by
  have last : n % 10 < 10 := Nat.mod_lt n (by decide)
  rw [UInt8.toNat_ofNat', Nat.mod_eq_of_lt (by omega)]

theorem isDigit_iff (b : UInt8) : isDigit b = true ↔ 48 ≤ b.toNat ∧ b.toNat ≤ 57 := by
  simp only [isDigit, Bool.and_eq_true, decide_eq_true_eq, UInt8.le_iff_toNat_le]
  rfl

theorem decimal_digits (n : Nat) : ∀ b ∈ decimal n, isDigit b = true := by
  induction n using Nat.strongRecOn with
  | ind n ih =>
    have last : isDigit (UInt8.ofNat (48 + n % 10)) = true := by
      rw [isDigit_iff, toNat_digit]
      omega
    rw [decimal_concat, List.forall_mem_append, List.forall_mem_singleton]
    refine ⟨?_, last⟩
    split
    · exact ih (n / 10) (by omega)
    · exact List.forall_mem_nil _

theorem decimal_field (n : Nat) : Field (decimal n) := by
  constructor
  · intro member
    exact absurd (decimal_digits n comma member) (by decide)
  · intro member
    exact absurd (decimal_digits n 10 member) (by decide)

theorem digits_concat {text : Bytes} (all : ∀ b ∈ text, isDigit b = true) (digit : isDigit last = true) :
    digits (text ++ [last]) = 10 * digits text + (last.toNat - 48) := by
  have more : ∀ b ∈ text ++ [last], isDigit b = true := List.forall_mem_append.mpr ⟨all, by simpa using digit⟩
  rw [digits, digits, List.takeWhile_eq_self_iff.mpr more, List.takeWhile_eq_self_iff.mpr all, List.foldl_append]
  rfl

/-- The number that is printed is read back. -/
theorem digits_decimal (n : Nat) : digits (decimal n) = n := by
  induction n using Nat.strongRecOn with
  | ind n ih =>
    have all := decimal_digits n
    rw [decimal_concat, List.forall_mem_append, List.forall_mem_singleton] at all
    rw [decimal_concat, digits_concat all.1 all.2, toNat_digit]
    split
    · rw [ih (n / 10) (by omega)]
      omega
    · rw [show digits [] = 0 from rfl]
      omega

theorem strtol_decimal {n : Nat} (small : n < 2 ^ 31) : strtol (decimal n) = n := by
  have all := decimal_digits n
  have value := digits_decimal n
  have nonempty : decimal n ≠ [] := by
    rw [decimal_concat]
    simp
  cases same : decimal n with
  | nil => exact absurd same nonempty
  | cons b rest =>
    rw [same] at all value
    have first := (isDigit_iff b).mp (all b List.mem_cons_self)
    have noSpace : isSpace b = false := by
      simp only [isSpace, Bool.or_eq_false_iff, Bool.and_eq_false_iff, decide_eq_false_iff_not]
      refine ⟨?_, .inr ?_⟩
      · rintro rfl
        exact absurd first.1 (by decide)
      · rw [UInt8.le_iff_toNat_le]
        exact fun small => absurd (first.1.trans small) (by decide)
    have minus : b ≠ 45 := by
      rintro rfl
      exact absurd first.1 (by decide)
    have plus : b ≠ 43 := by
      rintro rfl
      exact absurd first.1 (by decide)
    rw [strtol, List.dropWhile_cons_of_neg (by simp [noSpace])]
    split
    · next same => exact absurd (List.cons.inj same).1 minus
    · next same => exact absurd (List.cons.inj same).1 plus
    · rw [value]
      omega

theorem atoi_decimal {n : Nat} (small : n < 2 ^ 31) : atoi (decimal n) = n := by
  rw [atoi, strtol_decimal small]
  exact Int32.toInt_ofInt_of_le (by omega) (by omega)

theorem resultsFields_field {showTime : Time → Bytes} (plain : ∀ t, Field (showTime t)) (r : Results Time) :
    ∀ text ∈ resultsFields showTime r, Field text := by
  simp only [resultsFields, List.forall_mem_cons]
  exact ⟨plain _, decimal_field _, decimal_field _, decimal_field _, decimal_field _, plain _, decimal_field _,
    List.forall_mem_nil _⟩

theorem intercalate_noNewline {texts : List Bytes} (plain : ∀ text ∈ texts, Field text) :
    10 ∉ [comma].intercalate texts := by
  induction texts with
  | nil => simp
  | cons text texts ih =>
    obtain ⟨first, rest⟩ := List.forall_mem_cons.mp plain
    cases texts with
    | nil => simpa using first.noNewline
    | cons second texts =>
      rw [List.intercalate_cons_cons, List.append_assoc, List.mem_append, List.singleton_append, List.mem_cons]
      rintro (here | same | later)
      · exact first.noNewline here
      · exact absurd same (by decide)
      · exact ih rest later

theorem resultsText_append (showTime : Time → Bytes) (file : Bytes) (rows : List (Results Time)) :
    resultsText showTime file rows =
      file ++ rows.flatMap fun r => [comma].intercalate (resultsFields showTime r) ++ [10] := by
  induction rows generalizing file with
  | nil => simp [resultsText]
  | cons r rows ih =>
    rw [resultsText, List.foldl_cons, ← resultsText, ih, writeResults, List.append_assoc]
    rfl

/-- The file read line by line, and each line split at its commas, gives the fields of the rows. -/
theorem results_read_back (showTime : Time → Bytes) (plain : ∀ t, Field (showTime t)) (rows : List (Results Time)) :
    (getLines (resultsText showTime [] rows)).map (List.splitOn comma) = rows.map (resultsFields showTime) := by
  rw [resultsText_append, List.nil_append]
  induction rows with
  | nil => rfl
  | cons r rows ih =>
    have fields := resultsFields_field plain r
    rw [List.flatMap_cons, List.append_assoc, List.singleton_append, getLines_line (intercalate_noNewline fields),
      List.map_cons, List.map_cons, ih, List.splitOn_intercalate comma (fun text member => (fields text member).noComma)]
    simp [resultsFields]

end DnsServer
