import Mathlib.Control.Basic

/-! Resumable programs over an arbitrary interface of operations. A program is a
tree of requests with explicit loop nodes, so that unbounded loops need no fuel,
and one embedding can be run alone against an environment or as one of many threads. -/
namespace Process

/-- The operations a program may request and the type of each answer. -/
structure Interface where
  Op : Type
  Reply : Op → Type

/-- `loop b body k` runs `body` from `b`: an answer on the left is the next loop
state, an answer on the right leaves the loop for `k`. -/
inductive Program (I : Interface) : Type → Type 1 where
  | ret : α → Program I α
  | call : (op : I.Op) → (I.Reply op → Program I α) → Program I α
  | loop : β → (β → Program I (β ⊕ γ)) → (γ → Program I α) → Program I α

namespace Program
variable {I : Interface} {α β γ E : Type}

def bind : Program I α → (α → Program I β) → Program I β
  | .ret a, f => f a
  | .call op k, f => .call op fun r => (k r).bind f
  | .loop b body k, f => .loop b body fun c => (k c).bind f

instance : Monad (Program I) where
  pure := .ret
  bind := bind

def request (op : I.Op) : Program I (I.Reply op) := .call op .ret

@[simp] theorem pure_eq (a : α) : (pure a : Program I α) = .ret a := rfl
@[simp] theorem bind_eq (p : Program I α) (f : α → Program I β) : p >>= f = p.bind f := rfl
@[simp] theorem ret_bind (a : α) (f : α → Program I β) : (Program.ret a).bind f = f a := rfl
@[simp] theorem call_bind (op : I.Op) (k : I.Reply op → Program I α) (f : α → Program I β) :
    (Program.call op k).bind f = .call op fun r => (k r).bind f := rfl
@[simp] theorem loop_bind (b : β) (body : β → Program I (β ⊕ γ)) (k : γ → Program I α)
    (f : α → Program I δ) :
    (Program.loop b body k).bind f = .loop b body fun c => (k c).bind f := rfl

theorem bind_ret (p : Program I α) : p.bind .ret = p := by
  induction p with
  | ret a => rfl
  | call op k ih => simp only [bind, ih]
  | loop b body k ihb ihk => simp only [bind, ihk]

theorem bind_assoc (p : Program I α) (f : α → Program I β) (g : β → Program I γ) :
    (p.bind f).bind g = p.bind fun a => (f a).bind g := by
  induction p with
  | ret a => rfl
  | call op k ih => simp only [bind, ih]
  | loop b body k ihb ihk => simp only [bind, ihk]

/-- One turn of a loop, as the program that follows it. -/
def unroll (b : β) (body : β → Program I (β ⊕ γ)) (k : γ → Program I α) : Program I α :=
  (body b).bind fun
    | .inl b => .loop b body k
    | .inr c => k c

theorem unroll_bind (b : β) (body : β → Program I (β ⊕ γ)) (k : γ → Program I α)
    (f : α → Program I δ) :
    (unroll b body k).bind f = unroll b body fun c => (k c).bind f := by
  simp only [unroll, bind_assoc]
  congr 1
  funext turn
  cases turn <;> rfl

/-! Execution alone, against an environment that answers each request. -/

/-- `none`: the environment never answers, as on a read that blocks for good. -/
abbrev Handler (I : Interface) (E : Type) := E → (op : I.Op) → Option (I.Reply op × E)

inductive Runs (h : Handler I E) : Program I α → E → α → E → Prop where
  | ret : Runs h (.ret a) e a e
  | call : h e op = some (r, e₁) → Runs h (k r) e₁ a e₂ → Runs h (.call op k) e a e₂
  | loop : Runs h (unroll b body k) e a e₁ → Runs h (.loop b body k) e a e₁

/-- Executable form of `Runs`; the fuel bounds the requests and loop turns. -/
def run (h : Handler I E) : Nat → Program I α → E → Option (α × E)
  | _, .ret a, e => some (a, e)
  | 0, _, _ => none
  | n + 1, .call op k, e => (h e op).bind fun answer => run h n (k answer.1) answer.2
  | n + 1, .loop b body k, e => run h n (unroll b body k) e

variable {h : Handler I E}

theorem Runs.reply {op : I.Op} {k : I.Reply op → Program I α} (r : I.Reply op) (e₁ : E)
    (asked : h e op = some (r, e₁)) (rest : Runs h (k r) e₁ a e₂) : Runs h (.call op k) e a e₂ :=
  .call asked rest

theorem runs_of_run {p : Program I α} (ran : run h n p e = some (a, e₁)) : Runs h p e a e₁ := by
  induction n generalizing p e with
  | zero =>
    cases p with
    | ret b => cases ran; exact .ret
    | call op k => simp [run] at ran
    | loop b body k => simp [run] at ran
  | succ n ih =>
    cases p with
    | ret b => cases ran; exact .ret
    | call op k =>
      simp only [run, Option.bind_eq_some_iff] at ran
      obtain ⟨answer, asked, ran⟩ := ran
      exact .call asked (ih ran)
    | loop b body k => exact .loop (ih ran)

@[simp] theorem runs_ret_iff : Runs h (.ret a) e b e₁ ↔ b = a ∧ e₁ = e := by
  constructor
  · intro ran; cases ran; exact ⟨rfl, rfl⟩
  · rintro ⟨rfl, rfl⟩; exact .ret

theorem runs_call_iff : Runs h (.call op k) e a e₂ ↔
    ∃ r e₁, h e op = some (r, e₁) ∧ Runs h (k r) e₁ a e₂ := by
  constructor
  · intro ran; cases ran with
    | call asked rest => exact ⟨_, _, asked, rest⟩
  · rintro ⟨r, e₁, asked, rest⟩; exact .call asked rest

@[simp] theorem runs_request_iff {op : I.Op} {r : I.Reply op} :
    Runs h (request op) e r e₁ ↔ h e op = some (r, e₁) := by
  constructor
  · intro ran
    obtain ⟨r, e₂, asked, rest⟩ := runs_call_iff.mp ran
    obtain ⟨rfl, rfl⟩ := runs_ret_iff.mp rest
    exact asked
  · intro asked
    exact .call asked .ret

theorem runs_loop_iff : Runs h (.loop b body k) e a e₁ ↔ Runs h (unroll b body k) e a e₁ := by
  constructor
  · intro ran; cases ran with
    | loop turn => exact turn
  · exact .loop

theorem Runs.bind {p : Program I α} {f : α → Program I β} (first : Runs h p e a e₁)
    (second : Runs h (f a) e₁ b e₂) : Runs h (p.bind f) e b e₂ := by
  induction first with
  | ret => exact second
  | call asked rest ih => exact .call asked (ih second)
  | loop turn ih => exact .loop (by simpa only [unroll_bind] using ih second)

theorem Runs.split {p : Program I α} {f : α → Program I β} (ran : Runs h (p.bind f) e b e₂) :
    ∃ a e₁, Runs h p e a e₁ ∧ Runs h (f a) e₁ b e₂ := by
  generalize whole : p.bind f = q at ran
  induction ran generalizing p with
  | ret =>
    cases p with
    | ret a => exact ⟨a, _, .ret, by rw [show f a = .ret _ from whole]; exact .ret⟩
    | call op k => cases whole
    | loop b body k => cases whole
  | call asked rest ih =>
    cases p with
    | ret a => exact ⟨a, _, .ret, by rw [show f a = _ from whole]; exact .call asked rest⟩
    | call op k =>
      cases whole
      obtain ⟨a, e₁, first, second⟩ := ih rfl
      exact ⟨a, e₁, .call asked first, second⟩
    | loop b body k => cases whole
  | loop turn ih =>
    cases p with
    | ret a => exact ⟨a, _, .ret, by rw [show f a = _ from whole]; exact .loop turn⟩
    | call op k => cases whole
    | loop b body k =>
      cases whole
      obtain ⟨a, e₁, first, second⟩ := ih (unroll_bind _ _ _ _)
      exact ⟨a, e₁, .loop first, second⟩

/-- An environment that answers by a function leaves no choice to the program. -/
theorem Runs.unique {p : Program I α} (first : Runs h p e a e₁) (second : Runs h p e b e₂) :
    a = b ∧ e₁ = e₂ := by
  induction first with
  | ret => cases second; exact ⟨rfl, rfl⟩
  | call asked rest ih =>
    cases second with
    | call again other =>
      obtain ⟨rfl, rfl⟩ := Prod.mk.inj (Option.some.inj (asked.symm.trans again))
      exact ih other
  | loop turn ih =>
    cases second with
    | loop other => exact ih other

theorem Runs.iff {p : Program I α} (ran : Runs h p e a e₁) :
    Runs h p e b e₂ ↔ b = a ∧ e₂ = e₁ := by
  constructor
  · intro other
    obtain ⟨rfl, rfl⟩ := ran.unique other
    exact ⟨rfl, rfl⟩
  · rintro ⟨rfl, rfl⟩
    exact ran

end Program
end Process
