import Mathlib.Logic.Relation

/-! Systems in which all runs end alike. -/
namespace Process
open Relation

variable {α : Type*} {R : α → α → Prop}

/-- Every run from `a` is finite and ends in a state satisfying `post`. -/
def Ends (R : α → α → Prop) (a : α) (post : α → Prop) : Prop :=
  Acc (fun b a => R a b) a ∧ ∀ b, ReflTransGen R a b → (∀ c, ¬ R b c) → post b

theorem Ends.mono {post post₁ : α → Prop} (ends : Ends R a post) (weaker : ∀ b, post b → post₁ b) :
    Ends R a post₁ :=
  ⟨ends.1, fun b run stuck => weaker b (ends.2 b run stuck)⟩

theorem Ends.and {post post₁ : α → Prop} (ends : Ends R a post) (ends₁ : Ends R a post₁) :
    Ends R a fun b => post b ∧ post₁ b :=
  ⟨ends.1, fun b run stuck => ⟨ends.2 b run stuck, ends₁.2 b run stuck⟩⟩

/-- A finite run that can go no further exists. -/
theorem Ends.exists {post : α → Prop} (ends : Ends R a post) : ∃ b, post b := by
  obtain ⟨finite, last⟩ := ends
  have stops : ∃ b, ReflTransGen R a b ∧ ∀ c, ¬ R b c := by
    induction finite with
    | intro a _ ih =>
      by_cases moves : ∃ b, R a b
      · obtain ⟨b, moved⟩ := moves
        obtain ⟨c, run, stops⟩ := ih b moved fun d run => last d (.head moved run)
        exact ⟨c, .head moved run, stops⟩
      · exact ⟨a, .refl, fun b moved => moves ⟨b, moved⟩⟩
  obtain ⟨b, run, stops⟩ := stops
  exact ⟨b, last b run stops⟩

/-- Different steps from one state can be made up for by one further step each. -/
def Diamond (R : α → α → Prop) : Prop :=
  ∀ a b c, R a b → R a c → b = c ∨ ∃ d, R b d ∧ R c d

/-- `n` steps lead from the first state to the second. -/
inductive Steps (R : α → α → Prop) : Nat → α → α → Prop where
  | refl : Steps R 0 a a
  | head : R a b → Steps R n b c → Steps R (n + 1) a c

theorem exists_steps (run : ReflTransGen R a b) : ∃ n, Steps R n a b := by
  induction run using ReflTransGen.head_induction_on with
  | refl => exact ⟨0, .refl⟩
  | head moved _ ih =>
    obtain ⟨n, steps⟩ := ih
    exact ⟨n + 1, .head moved steps⟩

/-- Whatever step is taken, the end is one step nearer. -/
theorem Diamond.nearer (diamond : Diamond R) (stuck : ∀ b, ¬ R z b) (steps : Steps R n a z)
    (moved : R a b) : ∃ m, n = m + 1 ∧ Steps R m b z := by
  induction steps generalizing b with
  | refl => exact absurd moved (stuck b)
  | head first rest ih =>
    rcases diamond _ _ _ first moved with rfl | ⟨d, fromC, fromB⟩
    · exact ⟨_, rfl, rest⟩
    · obtain ⟨m, rfl, steps⟩ := ih stuck fromC
      exact ⟨m + 1, rfl, .head fromB steps⟩

/-- Where steps commute, one run to an end is enough to know all runs. -/
theorem Diamond.ends (diamond : Diamond R) {post : α → Prop} (run : ReflTransGen R a z)
    (stuck : ∀ b, ¬ R z b) (last : post z) : Ends R a post := by
  obtain ⟨n, steps⟩ := exists_steps run
  clear run
  induction n generalizing a with
  | zero =>
    cases steps with
    | refl =>
      refine ⟨⟨_, fun b moved => absurd moved (stuck b)⟩, fun b run _ => ?_⟩
      rcases run.cases_head with rfl | ⟨c, moved, _⟩
      · exact last
      · exact absurd moved (stuck c)
  | succ n ih =>
    have next : ∀ b, R a b → Ends R b post := by
      intro b moved
      obtain ⟨m, same, rest⟩ := diamond.nearer stuck steps moved
      cases same
      exact ih rest
    refine ⟨⟨_, fun b moved => (next b moved).1⟩, fun b run halted => ?_⟩
    rcases run.cases_head with rfl | ⟨c, moved, rest⟩
    · cases steps with
      | head moved _ => exact absurd moved (halted _)
    · exact (next c moved).2 b rest halted

end Process
