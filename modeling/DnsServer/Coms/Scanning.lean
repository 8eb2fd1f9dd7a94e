import DnsServer.Coms.Sequential

/-! The scans of a received text by index: what they read and overwrite, and which texts keep them inside
the bytes received. -/
namespace DnsServer
open Process Program Memory

/-- The loop `do ++p while (*p != ' ')` over the bytes from index `i` on: the indices it reads, and where it
stops; `none` when it reads the one after the buffer. -/
def scan (i : Nat) : Bytes → List Nat × Option Nat
  | [] => ([i], none)
  | b :: rest =>
    if b = space then ([i], some i)
    else
      let (reads, stop) := scan (i + 1) rest
      (i :: reads, stop)

/-- `k` scans from index `p`, each from behind the space that the one before overwrote: the indices read and
written, and the one behind the last space. -/
def scans : Nat → Bytes → Nat → List Nat × Option Nat
  | 0, _, p => ([], some p)
  | k + 1, buffer, p =>
    match scan (p + 1) (buffer.drop (p + 1)) with
    | (reads, none) => (reads, none)
    | (reads, some stop) =>
      let (more, last) := scans k (buffer.set stop 0) (stop + 1)
      (reads ++ stop :: more, last)

/-- From index `p` on the text holds `k` spaces, each with a byte before it. -/
def Separators : Nat → Nat → Bytes → Prop
  | 0, _, _ => True
  | k + 1, p, text => ∃ i, p < i ∧ text[i]? = some space ∧ Separators k (i + 1) text

theorem scan_complete (clean : space ∉ field) (i : Nat) (rest : Bytes) :
    scan i (field ++ space :: rest) = (List.range' i (field.length + 1), some (i + field.length)) := by
  induction field generalizing i with
  | nil => simp [scan]
  | cons b field ih =>
    obtain ⟨other, clean⟩ := not_or.mp (List.mem_cons.not.mp clean)
    rw [List.cons_append, scan, if_neg (Ne.symm other), ih clean]
    simp only [List.length_cons, List.range'_succ, Prod.mk.injEq, Option.some.injEq, true_and]
    omega

theorem scan_endless (clean : space ∉ rest) (i : Nat) :
    scan i rest = (List.range' i (rest.length + 1), none) := by
  induction rest generalizing i with
  | nil => rfl
  | cons b rest ih =>
    obtain ⟨other, clean⟩ := not_or.mp (List.mem_cons.not.mp clean)
    rw [scan, if_neg (Ne.symm other), ih clean]
    rfl

/-- One scan stops at the first space behind its start, or leaves the buffer; it reads all up to there. -/
theorem scan_cases (buffer : Bytes) (p : Nat) :
    (∃ stop, scan (p + 1) (buffer.drop (p + 1)) = (List.range' (p + 1) (stop - p), some stop) ∧ p < stop ∧
      buffer[stop]? = some space ∧ ∀ i, p < i → i < stop → buffer[i]? ≠ some space) ∨
    (scan (p + 1) (buffer.drop (p + 1)) = (List.range' (p + 1) (buffer.length - (p + 1) + 1), none) ∧
      ∀ i, p < i → buffer[i]? ≠ some space) := by
  have shifted : ∀ i, p < i → buffer[i]? = (buffer.drop (p + 1))[i - (p + 1)]? := by
    intro i behind
    rw [List.getElem?_drop, show p + 1 + (i - (p + 1)) = i by omega]
  by_cases there : space ∈ buffer.drop (p + 1)
  · obtain ⟨field, rest, parts, clean⟩ := List.eq_append_cons_of_mem there
    rw [parts] at shifted
    refine .inl ⟨p + 1 + field.length, ?_, by omega, ?_, ?_⟩
    · rw [parts, scan_complete clean, show p + 1 + field.length - p = field.length + 1 by omega]
    · rw [shifted _ (by omega), List.getElem?_append_right (by omega), Nat.add_sub_cancel_left, Nat.sub_self]
      rfl
    · intro i behind before at_
      rw [shifted i behind, List.getElem?_append_left (by omega)] at at_
      exact clean (List.mem_of_getElem? at_)
  · refine .inr ⟨?_, ?_⟩
    · rw [scan_endless there, List.length_drop]
    · intro i behind at_
      rw [shifted i behind] at at_
      exact there (List.mem_of_getElem? at_)

/-- Texts that agree behind index `p` are separated alike from there. -/
theorem separators_congr (same : ∀ i, p < i → text[i]? = text'[i]?) :
    Separators k p text ↔ Separators k p text' := by
  induction k generalizing p with
  | zero => exact Iff.rfl
  | succ k ih =>
    apply exists_congr
    intro i
    apply and_congr_right
    intro behind
    rw [same i behind, ih fun j after => same j (by omega)]

theorem Separators.earlier (before : p ≤ p') (separators : Separators k p' text) : Separators k p text := by
  cases k with
  | zero => trivial
  | succ k =>
    obtain ⟨i, behind, at_, more⟩ := separators
    exact ⟨i, by omega, at_, more⟩

/-- Once the first space is found, the others are searched behind it. -/
theorem separators_succ (first : ∀ i, p < i → i < stop → text[i]? ≠ some space) (behind : p < stop)
    (at_ : text[stop]? = some space) : Separators (k + 1) p text ↔ Separators k (stop + 1) text := by
  constructor
  · rintro ⟨i, after, there, more⟩
    have later : stop ≤ i := by
      by_contra earlier
      exact first i after (by omega) there
    exact more.earlier (by omega)
  · intro more
    exact ⟨stop, behind, at_, more⟩

/-- What the scans touch lies below `n`, a zero byte being there, exactly when the `n` bytes hold the
separators. -/
theorem scans_inside_iff (k : Nat) (zero : buffer[n - 1]? = some 0) (start : p < n) :
    (∀ i ∈ (scans k buffer p).1, i < n) ↔ Separators k p (buffer.take n) := by
  induction k generalizing buffer p with
  | zero => simp [scans, Separators]
  | succ k ih =>
    have size : n - 1 < buffer.length := (List.getElem?_eq_some_iff.mp zero).1
    rcases scan_cases buffer p with ⟨stop, read, behind, at_, first⟩ | ⟨read, none⟩
    · rw [scans, read]
      by_cases inside : stop < n
      · have notLast : stop ≠ n - 1 := by
          rintro rfl
          cases zero.symm.trans at_
        have kept : (buffer.set stop 0)[n - 1]? = some 0 := by
          rw [List.getElem?_set_ne notLast, zero]
        have same : ∀ i, stop + 1 < i → ((buffer.set stop 0).take n)[i]? = (buffer.take n)[i]? := by
          intro i after
          simp only [List.getElem?_take]
          rw [List.getElem?_set_ne (by omega)]
        have found : (buffer.take n)[stop]? = some space := by
          rw [List.getElem?_take_of_lt inside, at_]
        have first' : ∀ i, p < i → i < stop → (buffer.take n)[i]? ≠ some space := by
          intro i after before
          rw [List.getElem?_take_of_lt (by omega)]
          exact first i after before
        rw [separators_succ first' behind found, ← separators_congr same, ← ih kept (by omega)]
        simp only [List.forall_mem_append, List.forall_mem_cons, List.mem_range'_1]
        constructor
        · rintro ⟨_, _, more⟩
          exact more
        · intro more
          exact ⟨fun i near => by omega, inside, more⟩
      · apply iff_of_false
        · intro low
          exact inside (low stop (by simp))
        · rintro ⟨i, after, there, _⟩
          rw [List.getElem?_take] at there
          split at there
          · exact first i after (by omega) there
          · cases there
    · rw [scans, read]
      apply iff_of_false
      · intro low
        have last := low buffer.length (List.mem_range'_1.mpr (by omega))
        omega
      · rintro ⟨i, after, there, _⟩
        rw [List.getElem?_take] at there
        split at there
        · exact none i after there
        · cases there

/-! The decoders use these scans. -/

/-- What is behind `k` fields. -/
def skipFields : Nat → Bytes → Option Bytes
  | 0, rest => some rest
  | k + 1, rest => (scanSpace rest).bind fun field => skipFields k field.2

theorem scanSpace_complete (clean : space ∉ field) (first : UInt8) (rest : Bytes) :
    scanSpace (first :: (field ++ space :: rest)) = some (first :: field, rest) := by
  have all : ∀ b ∈ field, (b != space) = true := by
    intro b member
    have differs : b ≠ space := fun same => clean (same ▸ member)
    simpa using differs
  simp only [scanSpace, List.dropWhile_append_of_pos all, List.takeWhile_append_of_pos all]
  simp

theorem scanSpace_endless (clean : space ∉ rest) (first : UInt8) : scanSpace (first :: rest) = none := by
  have all : ∀ b ∈ rest, (b != space) = true := by
    intro b member
    have differs : b ≠ space := fun same => clean (same ▸ member)
    simpa using differs
  rw [scanSpace, List.dropWhile_eq_nil_iff.mpr all]

theorem scans_after (stopped : (scans k buffer p).2 = some last) : p ≤ last := by
  induction k generalizing buffer p with
  | zero =>
    cases stopped
    exact Nat.le_refl _
  | succ k ih =>
    rw [scans] at stopped
    rcases scan_cases buffer p with ⟨stop, read, behind, _⟩ | ⟨read, _⟩
    · rw [read] at stopped
      exact (ih stopped).trans' (by omega)
    · rw [read] at stopped
      cases stopped

theorem skipFields_scans (k : Nat) (inside : p ≤ buffer.length) :
    skipFields k (buffer.drop p) = (scans k buffer p).2.map buffer.drop := by
  induction k generalizing buffer p with
  | zero => rfl
  | succ k ih =>
    rw [skipFields, scans]
    by_cases last : p < buffer.length
    · rw [List.drop_eq_getElem_cons last]
      by_cases there : space ∈ buffer.drop (p + 1)
      · obtain ⟨field, rest, parts, clean⟩ := List.eq_append_cons_of_mem there
        have length := congrArg List.length parts
        simp only [List.length_drop, List.length_append, List.length_cons] at length
        have inside : p + 1 + field.length + 1 ≤ buffer.length := by omega
        have behind : buffer.drop (p + 1 + field.length + 1) = rest := by
          rw [Nat.add_assoc, ← List.drop_drop, parts, List.drop_append]
          simp
        rw [parts, scanSpace_complete clean, scan_complete clean, Option.bind_some]
        generalize p + 1 + field.length = stop at inside behind
        change skipFields k rest = (scans k (buffer.set stop 0) (stop + 1)).2.map buffer.drop
        have kept : (buffer.set stop 0).drop (stop + 1) = rest := by
          rw [List.drop_set_of_lt (Nat.lt_succ_self _), behind]
        have more := ih (show stop + 1 ≤ (buffer.set stop 0).length by rwa [List.length_set])
        rw [kept] at more
        rw [more]
        apply Option.map_congr
        intro last stopped
        exact List.drop_set_of_lt (scans_after stopped)
      · rw [scanSpace_endless there, scan_endless there]
        rfl
    · rw [List.drop_of_length_le (show buffer.length ≤ p by omega),
        List.drop_of_length_le (show buffer.length ≤ p + 1 by omega)]
      rfl

/-- An update is decoded when three scans stop with a byte behind them, the id. -/
theorem decodeUpdate_isSome_iff (buffer : Bytes) : (decodeUpdate buffer).isSome ↔
    ∃ last, (scans 3 buffer 0).2 = some last ∧ last < buffer.length := by
  have skipped := skipFields_scans 3 (Nat.zero_le buffer.length)
  rw [List.drop_zero] at skipped
  have decoded : (decodeUpdate buffer).isSome ↔ ∃ id rest, skipFields 3 buffer = some (id :: rest) := by
    cases buffer with
    | nil => simp [decodeUpdate, skipFields, scanSpace]
    | cons flag buffer =>
      simp only [decodeUpdate, skipFields, List.head?_cons, Option.bind_eq_bind, Option.bind_some]
      cases scanSpace (flag :: buffer) with
      | none => simp
      | some field =>
        simp only [Option.bind_some]
        cases scanSpace field.2 with
        | none => simp
        | some field =>
          simp only [Option.bind_some]
          cases scanSpace field.2 with
          | none => simp
          | some field =>
            obtain ⟨_, rest⟩ := field
            cases rest <;> simp
  rw [decoded, skipped]
  constructor
  · rintro ⟨id, rest, stopped⟩
    obtain ⟨last, stops, at_⟩ := Option.map_eq_some_iff.mp stopped
    refine ⟨last, stops, ?_⟩
    by_contra outside
    rw [List.drop_of_length_le (Nat.not_lt.mp outside)] at at_
    cases at_
  · rintro ⟨last, stops, inside⟩
    exact ⟨_, _, by rw [stops, Option.map_some, List.drop_eq_getElem_cons inside]⟩

/-- An entry is decoded when a scan stops with a zero byte somewhere behind it. -/
theorem decodeEntry_isSome_iff (buffer : Bytes) : (decodeEntry buffer).isSome ↔
    ∃ last, (scans 1 buffer 0).2 = some last ∧ 0 ∈ buffer.drop last := by
  have skipped := skipFields_scans 1 (Nat.zero_le buffer.length)
  rw [List.drop_zero] at skipped
  have decoded : (decodeEntry buffer).isSome ↔ ∃ rest, skipFields 1 buffer = some rest ∧ 0 ∈ rest := by
    simp only [decodeEntry, skipFields]
    cases scanSpace buffer with
    | none => simp
    | some field => by_cases there : 0 ∈ field.2 <;> simp [there]
  rw [decoded, skipped]
  constructor
  · rintro ⟨_, stopped, zero⟩
    obtain ⟨last, stops, rfl⟩ := Option.map_eq_some_iff.mp stopped
    exact ⟨last, stops, zero⟩
  · rintro ⟨last, stops, zero⟩
    exact ⟨_, by rw [stops, Option.map_some], zero⟩

/-! What follows the receive loop. -/

def afterUpdateText (coms : UInt16) (buffer : Bytes) : Proc UInt8 :=
  match decodeUpdate buffer with
  | none => fault
  | some u => actuallyUpdate coms u.remove u.domain u.ip u.id

theorem recieveUpdate_after (coms : UInt16) (socket : Socket) : recieveUpdate coms socket = (do
    let ack : UInt8 ← act (.versionNum coms)
    if !(← send socket [ack]) then return 1
    let buffer ← act (.garbage textSize)
    match ← recieveText socket true buffer.val with
    | none =>
      close socket
      return 1
    | some buffer => afterUpdateText coms buffer) := rfl

/-- The entry, and the `n` that are still to come. -/
def afterEntryText (socket : Socket) (coms : UInt16) (n : Nat) (buffer : Bytes) : Proc UInt8 :=
  match decodeEntry buffer with
  | none => fault
  | some (domain, ip) => do
    act (.insert coms domain ip)
    recieveEntries socket coms n (endDomain buffer)

theorem recieveEntries_after (socket : Socket) (coms : UInt16) (n : Nat) (buffer : Bytes) :
    recieveEntries socket coms (n + 1) buffer = (do
      if !(← send socket [1]) then return 2
      match ← recieveText socket false buffer with
      | none =>
        close socket
        return 3
      | some buffer => afterEntryText socket coms n buffer) := rfl

/-- The program returns an error, and the table and the version are as before. -/
def Refuses (p : Proc UInt8) (coms : UInt16) (m : Mem) (s : Script) : Prop :=
  ∃ code m₁ s₁, Runs scripted p (m, s) code (m₁, s₁) ∧ code ≠ 0 ∧
    (m₁.coms coms).table = (m.coms coms).table ∧ (m₁.coms coms).versionNum = (m.coms coms).versionNum

/-- `k` scans of a buffer into which `n` bytes have been received touch only these, and the program after
the loop refuses bytes that lack the `k` spaces. -/
structure TextSafe (k : Nat) (after : Bytes → Proc UInt8) (coms : UInt16) (m : Mem) (s : Script)
    (buffer : Bytes) (n : Nat) : Prop where
  inside : ∀ i ∈ (scans k buffer 0).1, i < n
  refused : ¬ Separators k 0 (buffer.take n) → Refuses (after buffer) coms m s

theorem textSafe_iff (after : Bytes → Proc UInt8) (zero : buffer[n - 1]? = some 0) (received : 0 < n) :
    TextSafe k after coms m s buffer n ↔ Separators k 0 (buffer.take n) := by
  constructor
  · intro safe
    exact (scans_inside_iff k zero received).mp safe.inside
  · intro separators
    exact ⟨(scans_inside_iff k zero received).mpr separators, fun lacking => absurd separators lacking⟩

/-- An update's text is safe exactly when it holds three separators, an entry's when it holds one: the scans
have no other end. -/
theorem texts_safe_iff (coms : UInt16) (socket : Socket) (more : Nat) (m : Mem) (s : Script) (buffer : Bytes)
    (n : Nat) (zero : buffer[n - 1]? = some 0) (received : 0 < n) :
    (TextSafe 3 (afterUpdateText coms) coms m s buffer n ↔ Separators 3 0 (buffer.take n)) ∧
      (TextSafe 1 (afterEntryText socket coms more) coms m s buffer n ↔ Separators 1 0 (buffer.take n)) :=
  ⟨textSafe_iff _ zero received, textSafe_iff _ zero received⟩

/-- A text that lacks a separator is never refused: the scans leave the buffer, or find a space that an
earlier text has left there and the update is carried out. -/
theorem afterUpdateText_code (ran : Runs scripted (afterUpdateText coms buffer) (m, s) code (m₁, s₁)) :
    code = 0 := by
  unfold afterUpdateText at ran
  split at ran
  · cases ran with
    | call asked _ => cases asked
  · exact (ran.unique (runs_actuallyUpdate _ _ _ _ _)).1

def noScript : Script := ⟨[], [], zeros⟩

theorem texts_safe_new_domain :
    (TextSafe 3 (afterUpdateText 1) 1 (startMem .roundRobin) noScript (addNewDomain 1).text 23 ↔
        Separators 3 0 ((addNewDomain 1).text.take 23)) ∧
      (TextSafe 1 (afterEntryText ⟨0, .client⟩ 1 0) 1 (startMem .roundRobin) noScript (addNewDomain 1).text 23 ↔
        Separators 1 0 ((addNewDomain 1).text.take 23)) :=
  texts_safe_iff 1 ⟨0, .client⟩ 0 (startMem .roundRobin) noScript (addNewDomain 1).text 23 (by decide) (by decide)

/-- A lone zero byte: the scan goes on behind it. -/
theorem empty_text_unsafe :
    ¬ TextSafe 3 (afterUpdateText 1) 1 (startMem .roundRobin) noScript (List.replicate textSize 0) 1 := by
  intro safe
  have zero : (List.replicate textSize (0 : UInt8))[1 - 1]? = some 0 := rfl
  obtain ⟨i, behind, at_, _⟩ := (textSafe_iff _ zero Nat.one_pos).mp safe
  rw [List.getElem?_take, if_neg (by omega)] at at_
  cases at_

end DnsServer
