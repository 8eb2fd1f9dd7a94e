import DnsServer.Process.Machine

/-! Protocols that the threads of a machine follow, and invariants over their positions.
A thread's program is checked against its protocol once; what then holds across every
interleaving is argued about positions alone. -/
namespace Process

/-- The requests a thread may make from a position, and the positions that each answer can
lead to: an answer that leads nowhere does not occur. A plan is what the thread settles by itself
with its request, such as what a message stands for. A turn of a loop moves the position too. -/
structure Protocol (I : Interface) (S : Type) where
  Plan : Type
  permits : S → I.Op → Plan → Prop
  after : S → Plan → (op : I.Op) → I.Reply op → S → Prop
  mayTurn : S → Prop
  turn : S → S

namespace Program
variable {I : Interface} {S : Type} {α β γ δ : Type}

/-- From the position on, the program makes permitted requests only, and ends as `post` says.
A loop does so by an invariant of its own. -/
def Obeys (R : Protocol I S) : {α : Type} → Program I α → (α → S → Prop) → S → Prop
  | _, .ret a, post, s => post a s
  | _, .call op k, post, s => ∃ plan, R.permits s op plan ∧
      ∀ r s₁, R.after s plan op r s₁ → (k r).Obeys R post s₁
  | _, .loop b body k, post, s => ∃ Inv : _ → S → Prop, Inv b s ∧ ∀ b s, Inv b s →
      R.mayTurn s ∧ (body b).Obeys R (fun
        | .inl b, s => Inv b s
        | .inr c, s => (k c).Obeys R post s) (R.turn s)

variable {R : Protocol I S}

theorem Obeys.mono {p : Program I α} {post post₁ : α → S → Prop} (obeys : p.Obeys R post s)
    (weaker : ∀ a s, post a s → post₁ a s) : p.Obeys R post₁ s := by
  induction p generalizing s with
  | ret a => exact weaker a s obeys
  | call op k ih =>
    obtain ⟨plan, permitted, next⟩ := obeys
    exact ⟨plan, permitted, fun r s₁ led => ih r (next r s₁ led) weaker⟩
  | loop b body k ihb ihk =>
    obtain ⟨Inv, start, turns⟩ := obeys
    refine ⟨Inv, start, fun b s inv => ⟨(turns b s inv).1, ?_⟩⟩
    refine ihb b (turns b s inv).2 ?_
    rintro (b | c) s more
    · exact more
    · exact ihk c more weaker

theorem obeys_bind_iff {p : Program I α} {f : α → Program I β} {post : β → S → Prop} :
    (p.bind f).Obeys R post s ↔ p.Obeys R (fun a s => (f a).Obeys R post s) s := by
  induction p generalizing s with
  | ret a => exact Iff.rfl
  | call op k ih =>
    refine exists_congr fun plan => and_congr_right fun _ => ?_
    exact forall_congr' fun r => forall_congr' fun s₁ => imp_congr_right fun _ => ih r
  | loop b body k _ ihk =>
    refine exists_congr fun Inv => and_congr_right fun _ => ?_
    refine forall_congr' fun b => forall_congr' fun s => imp_congr_right fun _ =>
      and_congr_right fun _ => ⟨fun obeys => obeys.mono ?_, fun obeys => obeys.mono ?_⟩
    · rintro (b | c) s more
      · exact more
      · exact (ihk c).mp more
    · rintro (b | c) s more
      · exact more
      · exact (ihk c).mpr more

theorem Obeys.bind {p : Program I α} {f : α → Program I β} {post : β → S → Prop}
    (obeys : p.Obeys R (fun a s => (f a).Obeys R post s) s) : (p.bind f).Obeys R post s :=
  obeys_bind_iff.mpr obeys

theorem Obeys.unroll {body : β → Program I (β ⊕ γ)} {k : γ → Program I α} {post : α → S → Prop}
    (obeys : (Program.loop b body k).Obeys R post s) :
    R.mayTurn s ∧ (Program.unroll b body k).Obeys R post (R.turn s) := by
  obtain ⟨Inv, start, turns⟩ := obeys
  refine ⟨(turns b s start).1, .bind ((turns b s start).2.mono ?_)⟩
  rintro (b | c) s more
  · exact ⟨Inv, more, turns⟩
  · exact more

/-- A loop whose first turn obeys, and whatever follows it, does so itself. -/
theorem Obeys.of_unroll {body : β → Program I (β ⊕ γ)} {k : γ → Program I α} {post : α → S → Prop}
    (may : R.mayTurn s) (obeys : (Program.unroll b body k).Obeys R post (R.turn s)) :
    (Program.loop b body k).Obeys R post s := by
  refine ⟨fun b₁ s₁ => b₁ = b ∧ s₁ = s ∨ (Program.loop b₁ body k).Obeys R post s₁, .inl ⟨rfl, rfl⟩, ?_⟩
  rintro b₁ s₁ (⟨rfl, rfl⟩ | later)
  · refine ⟨may, (obeys_bind_iff.mp obeys).mono ?_⟩
    rintro (b | c) s more
    · exact .inr more
    · exact more
  · obtain ⟨may, more⟩ := later.unroll
    refine ⟨may, (obeys_bind_iff.mp more).mono ?_⟩
    rintro (b | c) s more
    · exact .inr more
    · exact more

end Program

section
variable {P : Platform} {Tid Mem S : Type} [DecidableEq P.Address] [DecidableEq P.Lock]
  [DecidableEq Tid]

/-- Every thread obeys its protocol from the position that `g` gives it. -/
def Follows (R : Tid → Protocol P.interface S) (post : Tid → UInt8 → S → Prop) (g : Tid → S)
    (G : State P Tid Mem) : Prop :=
  ∀ t, (G.threads t).Obeys (R t) (post t) (g t)

variable {R : Tid → Protocol P.interface S} {post : Tid → UInt8 → S → Prop}
  {action : Action P Tid Mem}

omit [DecidableEq P.Address] [DecidableEq P.Lock] in
theorem Follows.setThread {G₁ : State P Tid Mem} (follows : Follows R post g G)
    (same : G₁.threads = G.threads) (obeys : p.Obeys (R t) (post t) s) :
    Follows R post (Function.update g t s) (G₁.setThread t p) := by
  intro u
  by_cases own : u = t
  · subst own
    simpa [State.setThread] using obeys
  · simpa [State.setThread, own, same] using follows u

/-- A step is a permitted request, and the threads follow on from any position that its
answer leads to; or it is a turn of a loop. -/
theorem Follows.step {G G₁ : State P Tid Mem} (follows : Follows R post g G)
    (moved : Step action t G G₁) :
    (∃ call r G₀ k plan, G.threads t = @Program.call P.interface _ call k ∧
      (R t).permits (g t) call plan ∧ Perform action t G call r G₀ ∧ G₁ = G₀.setThread t (k r) ∧
      ∀ s, (R t).after (g t) plan call r s → Follows R post (Function.update g t s) G₁) ∨
    (∃ p, G₁ = G.setThread t p ∧ (R t).mayTurn (g t) ∧
      Follows R post (Function.update g t ((R t).turn (g t))) G₁) := by
  have obeys := follows t
  cases moved with
  | @call G₀ call k r at_ done =>
    rw [at_] at obeys
    obtain ⟨plan, permitted, next⟩ := obeys
    refine .inl ⟨call, r, G₀, k, plan, at_, permitted, done, rfl, fun s led => ?_⟩
    exact follows.setThread (perform_threads done) (next r s led)
  | turn at_ =>
    rw [at_] at obeys
    obtain ⟨may, more⟩ := obeys.unroll
    exact .inr ⟨_, rfl, may, follows.setThread rfl more⟩

end
end Process
