import Mathlib.Data.List.Nodup

/-! Parties that take turns. -/
namespace Process

/-- Whose turn it is, from the turn `c` on, `k` times. -/
def turns (n c k : Nat) : List Nat := (List.range k).map fun j => (c + j) % n

@[simp] theorem length_turns (n c k : Nat) : (turns n c k).length = k := by
  rw [turns, List.length_map, List.length_range]

theorem turns_append (n c k l : Nat) : turns n c (k + l) = turns n c k ++ turns n (c + k) l := by
  rw [turns, List.range_add, List.map_append, List.map_map]
  congr 1
  apply List.map_congr_left
  intro j _
  change (c + (k + j)) % n = (c + k + j) % n
  rw [Nat.add_assoc]

theorem turns_one (n c : Nat) : turns n c 1 = [c % n] := rfl

theorem turns_succ (n c k : Nat) : turns n c (k + 1) = c % n :: turns n (c + 1) k := by
  rw [Nat.add_comm, turns_append, turns_one, List.singleton_append]

/-- Where the counter is reduced makes no difference. -/
theorem turns_mod (n c k : Nat) : turns n (c % n) k = turns n c k := by
  apply List.map_congr_left
  intro j _
  rw [Nat.mod_add_mod]

theorem drop_turns (n c k l : Nat) : (turns n c (k + l)).drop k = turns n (c + k) l := by
  rw [turns_append]
  exact List.drop_left' (length_turns n c k)

theorem take_turns (n c k l : Nat) : (turns n c (k + l)).take k = turns n c k := by
  rw [turns_append]
  exact List.take_left' (length_turns n c k)

/-- In a round everyone has one turn. -/
theorem count_round (c : Nat) (party : i < n) : (turns n c n).count i = 1 := by
  induction c with
  | zero =>
    have all : turns n 0 n = List.range n := by
      conv_rhs => rw [← List.map_id (List.range n)]
      apply List.map_congr_left
      intro j member
      rw [Nat.zero_add]
      exact Nat.mod_eq_of_lt (List.mem_range.mp member)
    rw [all]
    exact List.count_eq_one_of_mem List.nodup_range (List.mem_range.mpr party)
  | succ c ih =>
    -- The turn that goes at the front is the one that comes at the end.
    have moved : turns n c n ++ [c % n] = [c % n] ++ turns n (c + 1) n := by
      rw [List.singleton_append, ← turns_succ, turns_append, turns_one, Nat.add_mod_right]
    have counts := congrArg (List.count i) moved
    rw [List.count_append, List.count_append, ih] at counts
    omega

theorem turns_perm (n c : Nat) : (turns n c n).Perm (List.range n) := by
  rw [List.perm_iff_count]
  intro i
  by_cases party : i < n
  · rw [count_round c party, List.count_eq_one_of_mem List.nodup_range (List.mem_range.mpr party)]
  · have outside : i ∉ turns n c n := by
      intro member
      obtain ⟨j, within, rfl⟩ := List.mem_map.mp member
      exact party (Nat.mod_lt _ (Nat.zero_lt_of_lt (List.mem_range.mp within)))
    rw [List.count_eq_zero.mpr outside, List.count_eq_zero.mpr (by simpa using party)]

/-- Of any number of turns nobody has two more than another. -/
theorem count_turns_le (c k : Nat) (party : i < n) (other : j < n) :
    (turns n c k).count i ≤ (turns n c k).count j + 1 := by
  induction k using Nat.strongRecOn with
  | ind k ih =>
    by_cases few : k ≤ n
    · obtain ⟨more, whole⟩ := Nat.exists_eq_add_of_le few
      have once := count_round c party
      rw [whole, turns_append, List.count_append, ← whole] at once
      omega
    · obtain ⟨more, rfl⟩ := Nat.exists_eq_add_of_le' (Nat.le_of_not_le few)
      have fewer := ih more (by omega)
      rw [turns_append, List.count_append, List.count_append, count_round _ party, count_round _ other]
      omega

end Process
