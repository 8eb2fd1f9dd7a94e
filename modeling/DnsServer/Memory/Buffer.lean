import Mathlib.Data.List.Basic
import Mathlib.Data.List.TakeWhile

/-! Bounded reads and writes of a block of memory, and NUL-terminated strings in one. -/
namespace Memory
variable {α : Type}

/-- Stores `data` from index `i` on; `none` if a cell lies outside the block. -/
def write (block : List α) (i : Nat) (data : List α) : Option (List α) :=
  if i + data.length ≤ block.length then
    some (block.take i ++ data ++ block.drop (i + data.length))
  else none

def read (block : List α) (i n : Nat) : Option (List α) :=
  if i + n ≤ block.length then some ((block.drop i).take n) else none

theorem write_isSome_iff (block : List α) (i : Nat) (data : List α) :
    (write block i data).isSome ↔ i + data.length ≤ block.length := by
  unfold write
  split <;> simp_all

theorem length_write (stored : write block i data = some after) : after.length = block.length := by
  unfold write at stored
  split at stored
  · cases stored
    simp only [List.length_append, List.length_take, List.length_drop]
    omega
  · cases stored

theorem take_write (stored : write block i data = some after) :
    after.take (i + data.length) = block.take i ++ data := by
  unfold write at stored
  split at stored
  · next fits =>
    cases stored
    have first : (block.take i).length = i := List.length_take_of_le (by omega)
    have both : i + data.length = (block.take i ++ data).length := by rw [List.length_append, first]
    rw [both]
    exact List.take_left
  · cases stored

theorem write_append (before : List α) (sameLength : old.length = data.length) (rest : List α) :
    write (before ++ (old ++ rest)) before.length data = some (before ++ (data ++ rest)) := by
  have fits : before.length + data.length ≤ (before ++ (old ++ rest)).length := by
    simp only [List.length_append]
    omega
  rw [write, if_pos fits, List.take_left, ← sameLength, List.drop_append]
  simp

theorem read_append (before : List α) (data rest : List α) :
    read (before ++ (data ++ rest)) before.length data.length = some data := by
  simp [read]

/-- The bytes before the first NUL. -/
def cString (block : List UInt8) : List UInt8 := block.takeWhile (· != 0)

@[simp] theorem cString_nil : cString [] = [] := rfl

theorem zero_not_mem_cString (block : List UInt8) : 0 ∉ cString block := by
  intro member
  simpa using List.mem_takeWhile_imp member

theorem cString_of_clean (clean : 0 ∉ text) : cString text = text := by
  rw [cString, List.takeWhile_eq_self_iff]
  intro b member
  have differs : b ≠ 0 := fun zero => clean (zero ▸ member)
  simpa using differs

theorem cString_append_zero (clean : 0 ∉ text) (rest : List UInt8) :
    cString (text ++ 0 :: rest) = text := by
  have all : ∀ b ∈ text, (b != 0) = true := by
    intro b member
    have differs : b ≠ 0 := fun zero => clean (zero ▸ member)
    simpa using differs
  rw [cString, List.takeWhile_append_of_pos all]
  simp

@[simp] theorem cString_cString (block : List UInt8) : cString (cString block) = cString block :=
  cString_of_clean (zero_not_mem_cString block)

end Memory
