import DnsServer.Process.Ends
import DnsServer.Process.Machine

/-! Two programs at the ends of one connection, each with a memory of its own. Neither can
disturb what the other is about to do, so all their runs end alike. -/
namespace Process

/-- `inbox` holds the segments that have yet to be received. -/
structure End (P : Platform) (E : Type) where
  program : P.Thread UInt8
  env : E
  inbox : List (List UInt8)
  closed : Bool

/-- `linked` is whether the client has connected. -/
structure Exchange (P : Platform) (E : Type) where
  ends : Side → End P E
  linked : Bool

section
variable {P : Platform} {E : Type}

def End.hear (e : End P E) (said : List (List UInt8)) : End P E := { e with inbox := e.inbox ++ said }

@[simp] theorem End.hear_nil (e : End P E) : e.hear [] = e := by simp [End.hear]

@[simp] theorem End.hear_closed (e : End P E) (said : List (List UInt8)) :
    (e.hear said).closed = e.closed := rfl

variable (answer : E → (op : P.Op) → Option (P.Reply op × E))

/-- The end after its next request, what it said in it and whether it connected; `gone` is
whether the other end has closed. -/
def End.step (d : Side) (linked gone : Bool) (e : End P E) :
    Option (End P E × List (List UInt8) × Bool) :=
  match e.program with
  | .ret _ => none
  | .loop b body k => some ({ e with program := Program.unroll b body k }, [], false)
  | .call (.connect _) k =>
    if d = .client then some ({ e with program := k ⟨0, .client⟩ }, [], true) else none
  | .call (.accept _) k =>
    if d = .server ∧ linked then some ({ e with program := k ⟨0, .server⟩ }, [], false) else none
  | .call (.send s bytes) k =>
    if s = ⟨0, d⟩ ∧ e.closed = false then some ({ e with program := k true }, [bytes], false) else none
  | .call (.recv s len) k =>
    if s = ⟨0, d⟩ then
      match e.inbox with
      | segment :: rest =>
        some ({ e with
          program := k (some (segment.take len))
          inbox := leftover len segment rest }, [], false)
      | [] => if gone then some ({ e with program := k (some []) }, [], false) else none
    else none
  | .call (.close s) k =>
    if s = ⟨0, d⟩ then some ({ e with program := k (), closed := true }, [], false) else none
  | .call (.lock _) _ => none
  | .call (.unlock _) _ => none
  | .call (.act op) k =>
    (answer e.env op).map fun (r, env) => ({ e with program := k r, env }, [], false)

namespace Exchange

def after (X : Exchange P E) (d : Side) (e : End P E) (said : List (List UInt8)) (linked : Bool) :
    Exchange P E where
  ends := Function.update (Function.update X.ends d e) d.other ((X.ends d.other).hear said)
  linked := X.linked || linked

/-- One step of either end. -/
def Moves (X Y : Exchange P E) : Prop :=
  ∃ d e said linked, (X.ends d).step answer d X.linked (X.ends d.other).closed = some (e, said, linked) ∧
    Y = X.after d e said linked

end Exchange

variable {answer}

theorem leftover_append (len : Nat) (segment : List UInt8) (rest said : List (List UInt8)) :
    leftover len segment (rest ++ said) = leftover len segment rest ++ said := by
  unfold leftover
  split
  · rfl
  · rfl

/-- A closed end stays closed and says nothing. -/
theorem End.step_closed {d : Side} {linked gone l : Bool} {e e₁ : End P E}
    (step : e.step answer d linked gone = some (e₁, said, l)) (closed : e.closed = true) :
    e₁.closed = true ∧ said = [] := by
  obtain ⟨program, env, inbox, _⟩ := e
  cases closed
  cases program with
  | ret => cases step
  | loop =>
    cases step
    exact ⟨rfl, rfl⟩
  | call op k =>
    cases op with
    | send s bytes => simp [End.step] at step
    | lock | unlock => cases step
    | act op =>
      simp only [End.step, Option.map_eq_some_iff] at step
      obtain ⟨_, _, done⟩ := step
      cases done
      exact ⟨rfl, rfl⟩
    | recv s len =>
      cases inbox with
      | nil =>
        simp only [End.step, Option.ite_none_right_eq_some] at step
        obtain ⟨_, _, done⟩ := step
        cases done
        exact ⟨rfl, rfl⟩
      | cons segment rest =>
        simp only [End.step, Option.ite_none_right_eq_some] at step
        obtain ⟨_, done⟩ := step
        cases done
        exact ⟨rfl, rfl⟩
    | _ =>
      simp only [End.step, Option.ite_none_right_eq_some] at step
      obtain ⟨_, done⟩ := step
      cases done
      exact ⟨rfl, rfl⟩

/-- What an end hears meanwhile does not change its next request or the answer. -/
theorem End.step_hear {d : Side} {linked gone linked₁ gone₁ l : Bool} {e e₁ : End P E}
    (step : e.step answer d linked gone = some (e₁, said, l)) (stays : linked = true → linked₁ = true)
    (silent : gone = true → gone₁ = true ∧ heard = []) :
    (e.hear heard).step answer d linked₁ gone₁ = some (e₁.hear heard, said, l) := by
  obtain ⟨program, env, inbox, closed⟩ := e
  cases program with
  | ret => cases step
  | loop =>
    cases step
    rfl
  | call op k =>
    cases op with
    | lock | unlock => cases step
    | accept a =>
      simp only [End.step, End.hear, Option.ite_none_right_eq_some] at step ⊢
      obtain ⟨⟨side, ready⟩, done⟩ := step
      cases done
      exact ⟨⟨side, stays ready⟩, rfl⟩
    | act op =>
      simp only [End.step, End.hear, Option.map_eq_some_iff] at step ⊢
      obtain ⟨answered, asked, done⟩ := step
      cases done
      exact ⟨answered, asked, rfl⟩
    | recv s len =>
      cases inbox with
      | nil =>
        simp only [End.step, Option.ite_none_right_eq_some] at step
        obtain ⟨own, ended, done⟩ := step
        cases done
        obtain ⟨ended, rfl⟩ := silent ended
        simp [End.step, End.hear, own, ended]
      | cons segment rest =>
        simp only [End.step, Option.ite_none_right_eq_some] at step
        obtain ⟨own, done⟩ := step
        cases done
        simp [End.step, End.hear, own, leftover_append]
    | _ =>
      simp only [End.step, Option.ite_none_right_eq_some] at step
      obtain ⟨able, done⟩ := step
      cases done
      simp [End.step, End.hear, able]

namespace Exchange

@[simp] theorem after_own (X : Exchange P E) (d : Side) (e : End P E) (said : List (List UInt8))
    (linked : Bool) : (X.after d e said linked).ends d = e := by
  simp [after]

@[simp] theorem after_other (X : Exchange P E) (d : Side) (e : End P E) (said : List (List UInt8))
    (linked : Bool) : (X.after d e said linked).ends d.other = (X.ends d.other).hear said := by
  simp [after]

theorem after_comm (X : Exchange P E) (d : Side) (e e₁ : End P E) (said said₁ : List (List UInt8))
    (linked linked₁ : Bool) :
    (X.after d e said linked).after d.other (e₁.hear said) said₁ linked₁ =
      (X.after d.other e₁ said₁ linked₁).after d (e.hear said₁) said linked := by
  simp only [after, mk.injEq]
  constructor
  · funext side
    rcases side.eq_or_other d with rfl | rfl
    · simp
    · simp
  · simp only [Bool.or_assoc, Bool.or_comm linked]

/-- The other end's step can still be taken, as it was. -/
theorem step_after {X : Exchange P E} {d o : Side} {l l₁ : Bool} {e e₁ : End P E} (other : o = d.other)
    (step : (X.ends d).step answer d X.linked (X.ends o).closed = some (e, said, l))
    (step₁ : (X.ends o).step answer o X.linked (X.ends d).closed = some (e₁, said₁, l₁)) :
    Moves answer (X.after d e said l) ((X.after d e said l).after o (e₁.hear said) said₁ l₁) := by
  subst other
  refine ⟨d.other, _, _, _, ?_, rfl⟩
  rw [Side.other_other, after_other, after_own]
  refine End.step_hear step₁ ?_ (End.step_closed step)
  intro ready
  simp [after, ready]

theorem diamond : Diamond (Exchange.Moves (P := P) answer) := by
  rintro X _ _ ⟨d, e₁, said₁, l₁, step₁, rfl⟩ ⟨o, e₂, said₂, l₂, step₂, rfl⟩
  rcases o.eq_or_other d with rfl | rfl
  · cases step₁.symm.trans step₂
    exact .inl rfl
  · rw [Side.other_other] at step₂
    refine .inr ⟨_, step_after rfl step₁ step₂, ?_⟩
    rw [after_comm]
    exact step_after d.other_other.symm step₂ step₁

end Exchange

end
end Process
