import Mathlib.Data.List.Chain
import Mathlib.Data.Set.Basic
import Mathlib.Logic.Relation

/-! Replicas that take numbered commands, each brought to them in attempts that may miss some. -/
namespace Replication
open Relation
variable {P V S : Type}

/-- A state and the version of the last command made to it. -/
structure Replica (V S : Type) where
  version : V
  state : S

/-- A command that does no more when it is made again. -/
structure Command (V S : Type) where
  version : V
  effect : S → S
  idempotent : ∀ s, effect (effect s) = effect s

section
variable [DecidableEq V]

/-- A replica at the version has had the command. -/
def Command.take (c : Command V S) (r : Replica V S) : Replica V S :=
  if r.version = c.version then r else ⟨c.version, c.effect r.state⟩

theorem take_stale {c : Command V S} {r : Replica V S} (stale : r.version ≠ c.version) :
    c.take r = ⟨c.version, c.effect r.state⟩ := if_neg stale

theorem take_fresh {c : Command V S} {r : Replica V S} (fresh : r.version = c.version) : c.take r = r :=
  if_pos fresh

@[simp] theorem take_version (c : Command V S) (r : Replica V S) : (c.take r).version = c.version := by
  unfold Command.take
  split
  · assumption
  · rfl

@[simp] theorem take_take (c : Command V S) (r : Replica V S) : c.take (c.take r) = c.take r :=
  take_fresh (take_version c r)

/-- An attempt leaves every replica as it was, or with the command. -/
def Command.Reaches (c : Command V S) (before after : P → Replica V S) : Prop :=
  ∀ p, after p = before p ∨ after p = c.take (before p)

variable {c : Command V S} {before middle after : P → Replica V S}

theorem Command.Reaches.refl (c : Command V S) (before : P → Replica V S) : c.Reaches before before :=
  fun _ => .inl rfl

theorem Command.Reaches.trans (first : c.Reaches before middle) (second : c.Reaches middle after) :
    c.Reaches before after := by
  intro p
  rcases first p with same | taken
  · rw [← same]
    exact second p
  · right
    rcases second p with same | again
    · rw [same, taken]
    · rw [again, taken, take_take]

/-- However often a command is tried, no replica has it twice. -/
theorem reaches_of_attempts {A : Type} {view : A → P → Replica V S} {attempt : A → A → Prop}
    (step : ∀ a b, attempt a b → c.Reaches (view a) (view b)) {a b : A} (attempts : ReflTransGen attempt a b) :
    c.Reaches (view a) (view b) := by
  induction attempts with
  | refl => exact .refl c _
  | tail _ tried ih => exact ih.trans (step _ _ tried)

/-- An attempt that misses none of the members. -/
structure Command.Completes (c : Command V S) (members : Set P) (before after : P → Replica V S) : Prop where
  reaches : c.Reaches before after
  all : ∀ p ∈ members, after p = c.take (before p)

/-- The last attempt makes up for those before it. -/
theorem Command.Reaches.completes {members : Set P} (first : c.Reaches before middle)
    (last : c.Completes members middle after) : c.Completes members before after where
  reaches := first.trans last.reaches
  all p member := by
    rw [last.all p member]
    rcases first p with same | taken
    · rw [same]
    · rw [taken, take_take]

end

/-- Commands that all members get, one after another. -/
inductive Logged [DecidableEq V] (members : Set P) :
    List (Command V S) → (P → Replica V S) → (P → Replica V S) → Prop where
  | nil : Logged members [] before before
  | cons {c : Command V S} {cs : List (Command V S)} {before middle after : P → Replica V S} :
    c.Completes members before middle → Logged members cs middle after → Logged members (c :: cs) before after

def playAll (cs : List (Command V S)) (s : S) : S := cs.foldl (fun s c => c.effect s) s

/-- Each command has another version than what comes before it. -/
def Numbered (version : V) (cs : List (Command V S)) : Prop :=
  (version :: cs.map (·.version)).IsChain (· ≠ ·)

theorem numbered_cons {c : Command V S} {cs : List (Command V S)} :
    Numbered version (c :: cs) ↔ version ≠ c.version ∧ Numbered c.version cs :=
  List.isChain_cons_cons

section
variable [DecidableEq V] {members : Set P} {cs : List (Command V S)} {before after : P → Replica V S}

/-- A member ends with all of the commands, each made once and in order. -/
theorem Logged.state (logged : Logged members cs before after)
    (member : p ∈ members) (numbered : Numbered (before p).version cs) :
    (after p).state = playAll cs (before p).state ∧
      (after p).version = (cs.getLast?.map (·.version)).getD (before p).version := by
  induction logged with
  | nil => exact ⟨rfl, rfl⟩
  | @cons c cs before middle after first _ ih =>
    obtain ⟨stale, rest⟩ := numbered_cons.mp numbered
    have taken := first.all p member
    have next := ih (by rwa [taken, take_version])
    rw [taken, take_stale stale] at next
    refine ⟨next.1, next.2.trans ?_⟩
    cases cs with
    | nil => rfl
    | cons second cs =>
      rw [List.getLast?_cons_cons]
      rfl

end
end Replication
