import DnsServer.Process.Protocol
import Mathlib.Data.Set.Insert

/-! The mutexes that each thread holds, and when it may ask for another. -/
namespace Process

/-- `last` is the latest request, unless a loop has turned since. -/
structure Holding (P : Platform) where
  held : Set P.Lock
  last : Option P.Call

/-- The thread unlocks what it holds only, and asks for a mutex that it does not hold only where
`may` allows it. Having asked for one it holds, it never goes on. -/
def locking (may : Holding P → P.Lock → Prop) : Protocol P.interface (Holding P) where
  Plan := Unit
  permits s call _ :=
    match call with
    | .lock l => l ∈ s.held ∨ may s l
    | .unlock l => l ∈ s.held
    | _ => True
  after s _ call _ s₁ :=
    match call with
    | .lock l => l ∉ s.held ∧ s₁ = ⟨insert l s.held, some call⟩
    | .unlock l => s₁ = ⟨s.held \ {l}, some call⟩
    | _ => s₁ = ⟨s.held, some call⟩
  mayTurn _ := True
  turn s := { s with last := none }

/-- The program asks for no mutex and releases none. -/
def Program.Quiet {P : Platform} : {α : Type} → P.Thread α → Prop
  | _, .ret _ => True
  | _, .call op k => (∀ l, op ≠ .lock l ∧ op ≠ .unlock l) ∧ ∀ r, (k r).Quiet
  | _, .loop _ body k => (∀ b, (body b).Quiet) ∧ ∀ c, (k c).Quiet

namespace Program

theorem Quiet.request {P : Platform} {α : Type} {op : P.Call} {k : op.Reply → P.Thread α}
    (apart : ∀ l, op ≠ .lock l ∧ op ≠ .unlock l) (next : ∀ r, (k r).Quiet) :
    (@Program.call P.interface α op k).Quiet :=
  ⟨apart, next⟩

theorem Quiet.turns {P : Platform} {α β γ : Type} {b : β} {body : β → P.Thread (β ⊕ γ)}
    {k : γ → P.Thread α} (body' : ∀ b, (body b).Quiet) (next : ∀ c, (k c).Quiet) :
    (Program.loop b body k).Quiet :=
  ⟨body', next⟩

theorem Quiet.bind {P : Platform} {α β : Type} {p : P.Thread α} {f : α → P.Thread β}
    (quiet : p.Quiet) (next : ∀ a, (f a).Quiet) : (p.bind f).Quiet := by
  induction p with
  | ret a => exact next a
  | call op k ih => exact ⟨quiet.1, fun r => ih r (quiet.2 r) next⟩
  | loop b body k _ ih => exact ⟨quiet.1, fun c => ih c (quiet.2 c) next⟩

section
variable {P : Platform} {α : Type} {may : Holding P → P.Lock → Prop} {post : α → Holding P → Prop}
  {s : Holding P}

theorem Obeys.lock {k : Unit → P.Thread α} (next : l ∉ s.held → may s l ∧
      (k ()).Obeys (locking may) post ⟨insert l s.held, some (.lock l)⟩) :
    (@Program.call P.interface α (.lock l) k).Obeys (locking may) post s := by
  refine ⟨(), ?_, ?_⟩
  · by_cases own : l ∈ s.held
    · exact .inl own
    · exact .inr (next own).1
  · rintro ⟨⟩ _ ⟨unheld, rfl⟩
    exact (next unheld).2

theorem Obeys.unlock {k : Unit → P.Thread α} (own : l ∈ s.held)
    (next : (k ()).Obeys (locking may) post ⟨s.held \ {l}, some (.unlock l)⟩) :
    (@Program.call P.interface α (.unlock l) k).Obeys (locking may) post s := by
  refine ⟨(), own, ?_⟩
  rintro ⟨⟩ _ rfl
  exact next

theorem Obeys.request {op : P.Call} {k : op.Reply → P.Thread α}
    (apart : ∀ l, op ≠ .lock l ∧ op ≠ .unlock l)
    (next : ∀ r, (k r).Obeys (locking may) post ⟨s.held, some op⟩) :
    (@Program.call P.interface α op k).Obeys (locking may) post s := by
  cases op with
  | lock l => exact absurd rfl (apart l).1
  | unlock l => exact absurd rfl (apart l).2
  | _ =>
    refine ⟨(), trivial, ?_⟩
    rintro r _ rfl
    exact next r

end

/-- Run alone, a quiet program keeps what no request but those for mutexes changes. -/
theorem Quiet.runs {P : Platform} {α E β : Type} {h : Handler P.interface E} {f : E → β}
    (keeps : ∀ e (call : P.Call) r e₁, (∀ l, call ≠ .lock l ∧ call ≠ .unlock l) →
      h e call = some (r, e₁) → f e₁ = f e)
    {p : P.Thread α} {a : α} {e e₁ : E} (quiet : p.Quiet) (ran : Runs h p e a e₁) : f e₁ = f e := by
  induction ran with
  | ret => rfl
  | call asked _ ih => exact (ih (quiet.2 _)).trans (keeps _ _ _ _ quiet.1 asked)
  | loop _ ih =>
    apply ih
    apply Quiet.bind (quiet.1 _)
    rintro (b | c)
    · exact quiet
    · exact quiet.2 c

/-- A quiet program leaves its thread holding what it held. -/
theorem Quiet.obeys {P : Platform} {α : Type} {p : P.Thread α} (quiet : p.Quiet)
    (may : Holding P → P.Lock → Prop) (s : Holding P) :
    p.Obeys (locking may) (fun _ s₁ => s₁.held = s.held) s := by
  induction p generalizing s with
  | ret a => rfl
  | call op k ih =>
    obtain ⟨apart, quiet⟩ := quiet
    exact .request apart fun r => ih r (quiet r) ⟨s.held, some op⟩
  | loop b body k ihb ihk =>
    refine ⟨fun _ s₁ => s₁.held = s.held, rfl, fun b s₁ same => ⟨trivial, ?_⟩⟩
    refine (ihb b (quiet.1 b) _).mono ?_
    rintro (b | c) s₂ kept
    · exact kept.trans same
    · refine (ihk c (quiet.2 c) s₂).mono fun _ s₃ more => ?_
      exact more.trans (kept.trans same)

end Program

section
variable {P : Platform} {Tid Mem : Type} [DecidableEq P.Address] [DecidableEq P.Lock]
  [DecidableEq Tid] {may : Tid → Holding P → P.Lock → Prop}
  {post : Tid → UInt8 → Holding P → Prop} {action : Action P Tid Mem}

/-- The positions tell who holds each mutex. -/
def Holds (g : Tid → Holding P) (G : State P Tid Mem) : Prop :=
  ∀ t l, G.locks l = some t ↔ l ∈ (g t).held

omit [DecidableEq P.Address] [DecidableEq P.Lock] in
theorem Holds.other {G₁ : State P Tid Mem} (holds : Holds g G) (kept : s.held = (g t).held)
    (same : G₁.locks = G.locks) : Holds (Function.update g t s) G₁ := by
  intro u l
  by_cases own : u = t
  · subst own
    rw [Function.update_self, kept, same]
    exact holds u l
  · rw [Function.update_of_ne own, same]
    exact holds u l

omit [DecidableEq P.Address] in
theorem Holds.lock {G : State P Tid Mem} (holds : Holds g G) (free : G.locks l = none)
    (call : Option P.Call) (p : P.Thread UInt8) :
    Holds (Function.update g t ⟨insert l (g t).held, call⟩) ((G.setLock l (some t)).setThread t p) := by
  intro u m
  change Function.update G.locks l (some t) m = some u ↔ _
  by_cases asked : m = l
  · subst asked
    rw [Function.update_self]
    by_cases own : u = t
    · subst own
      simp
    · have unheld : m ∉ (g u).held := by
        rw [← holds u m, free]
        simp
      rw [Function.update_of_ne own]
      exact iff_of_false (fun same => own (Option.some.inj same).symm) unheld
  · rw [Function.update_of_ne asked]
    by_cases own : u = t
    · subst own
      rw [Function.update_self]
      simp only [Set.mem_insert_iff, asked, false_or]
      exact holds u m
    · rw [Function.update_of_ne own]
      exact holds u m

omit [DecidableEq P.Address] in
theorem Holds.unlock {G : State P Tid Mem} (holds : Holds g G) (own : l ∈ (g t).held)
    (call : Option P.Call) (p : P.Thread UInt8) :
    Holds (Function.update g t ⟨(g t).held \ {l}, call⟩) ((G.setLock l none).setThread t p) := by
  intro u m
  change Function.update G.locks l none m = some u ↔ _
  by_cases released : m = l
  · subst released
    have holder := (holds t m).mpr own
    rw [Function.update_self]
    by_cases same : u = t
    · subst same
      simp
    · rw [Function.update_of_ne same, ← holds u m, holder]
      simp [Ne.symm same]
  · rw [Function.update_of_ne released]
    by_cases same : u = t
    · subst same
      rw [Function.update_self]
      simp only [Set.mem_sdiff, Set.mem_singleton_iff, released, not_false_eq_true, and_true]
      exact holds u m
    · rw [Function.update_of_ne same]
      exact holds u m

/-- What a step makes of the positions: the thread's is the one after its request, whose
mutex was free, or the one after a turn. -/
theorem Follows.locked {G G₁ : State P Tid Mem}
    (follows : Follows (fun t => locking (may t)) post g G) (holds : Holds g G)
    (moved : Step action t G G₁) :
    ∃ s, Follows (fun t => locking (may t)) post (Function.update g t s) G₁ ∧
      Holds (Function.update g t s) G₁ ∧ ∀ call, s.last = some call →
        ∃ k, G.threads t = @Program.call P.interface _ call k ∧
          ∀ l, call = .lock l → G.locks l = none := by
  rcases follows.step moved with
    ⟨call, r, G₀, k, _, at_, permitted, done, rfl, next⟩ | ⟨p, rfl, _, more⟩
  · cases done with
    | lock free =>
      rename_i l
      have unheld : l ∉ (g t).held := by
        rw [← holds t l, free]
        simp
      refine ⟨⟨insert l (g t).held, some (.lock l)⟩, next _ ⟨unheld, rfl⟩, holds.lock free _ _, ?_⟩
      rintro _ ⟨⟩
      refine ⟨k, at_, ?_⟩
      rintro _ ⟨⟩
      exact free
    | unlock =>
      rename_i l
      refine ⟨⟨(g t).held \ {l}, some (.unlock l)⟩, next _ rfl, holds.unlock permitted _ _, ?_⟩
      rintro _ ⟨⟩
      exact ⟨k, at_, by rintro _ ⟨⟩⟩
    | _ =>
      refine ⟨⟨(g t).held, _⟩, next _ rfl, holds.other rfl rfl, ?_⟩
      rintro _ ⟨⟩
      exact ⟨k, at_, by rintro _ ⟨⟩⟩
  · exact ⟨_, more, holds.other rfl rfl, by rintro _ ⟨⟩⟩

omit [DecidableEq P.Address] [DecidableEq P.Lock] [DecidableEq Tid] in
/-- A thread that waits for a mutex which another one holds was allowed to ask for it. -/
theorem Follows.allowed {G : State P Tid Mem}
    (follows : Follows (fun t => locking (may t)) post g G) (wants : Wants G t l)
    (unheld : l ∉ (g t).held) : may t (g t) l := by
  obtain ⟨k, at_⟩ := wants
  have obeys := follows t
  rw [at_] at obeys
  obtain ⟨_, permitted, _⟩ := obeys
  exact permitted.resolve_left unheld

end
end Process
