import DnsServer.Process.Trace

/-! One program in an environment that others change between its requests. What it relies on of them
is that they change nothing but by `drift`. -/
namespace Process
open Relation Program

section
variable {I : Interface} {α E : Type} (answer : E → (op : I.Op) → I.Reply op → E → Prop)
  (drift : E → E → Prop)

/-- A step of the program, or a change that others make. -/
inductive Shared : Program I α × E → Program I α × E → Prop where
  | call {op : I.Op} {k : I.Reply op → Program I α} {r : I.Reply op} : answer e op r e₁ → Shared (.call op k, e) (k r, e₁)
  | turn {body : β → Program I (β ⊕ γ)} {k : γ → Program I α} : Shared (.loop b body k, e) (unroll b body k, e)
  | drift : drift e e₁ → Shared (p, e) (p, e₁)

/-- A step of the program while nobody changes anything. -/
abbrev Alone : Program I α × E → Program I α × E → Prop := Shared answer fun _ _ => False

section
variable {answer drift}

theorem Shared.bind {p p₁ : Program I α} {f : α → Program I β} (moved : Shared answer drift (p, e) (p₁, e₁)) :
    Shared answer drift (p.bind f, e) (p₁.bind f, e₁) := by
  cases moved with
  | call answered => exact .call answered
  | turn =>
    rw [unroll_bind]
    exact .turn
  | drift changed => exact .drift changed

/-- The first program steps, unless it has ended. -/
theorem Shared.split {p : Program I α} {f : α → Program I β} (moved : Shared answer drift (p.bind f, e) Y) :
    (∃ a, p = .ret a) ∨ ∃ p₁ e₁, Shared answer drift (p, e) (p₁, e₁) ∧ Y = (p₁.bind f, e₁) := by
  cases p with
  | ret a => exact .inl ⟨a, rfl⟩
  | call op k =>
    cases moved with
    | call answered => exact .inr ⟨_, _, .call answered, rfl⟩
    | drift changed => exact .inr ⟨_, _, .drift changed, rfl⟩
  | loop b body k =>
    cases moved with
    | turn => exact .inr ⟨_, _, .turn, by rw [unroll_bind]⟩
    | drift changed => exact .inr ⟨_, _, .drift changed, rfl⟩

theorem Shared.weaken (moved : Alone answer X Y) : Shared answer drift X Y := by
  cases moved with
  | call answered => exact .call answered
  | turn => exact .turn
  | drift changed => exact changed.elim

theorem Shared.own_or_drift (moved : Shared answer drift (p, e) (p₁, e₁)) :
    Alone answer (p, e) (p₁, e₁) ∨ drift e e₁ ∧ p₁ = p := by
  cases moved with
  | call answered => exact .inl (.call answered)
  | turn => exact .inl .turn
  | drift changed => exact .inr ⟨changed, rfl⟩

/-- A part of a run that nobody disturbs. -/
theorem Program.Runs.shared {h : Handler I E} {p : Program I α}
    (allowed : ∀ e op r e₁, h e op = some (r, e₁) → answer e op r e₁)
    (ran : Runs h p e a e₁) (f : α → Program I β) :
    ReflTransGen (Shared answer drift) (p.bind f, e) (f a, e₁) := by
  induction ran with
  | ret => exact .refl
  | call asked _ ih => exact .head (.call (allowed _ _ _ _ asked)) ih
  | loop _ ih => exact .head (.bind .turn) ih

/-- A program that makes no requests but these makes no others later. -/
theorem asks_shared {ok : I.Op → Prop} (run : ReflTransGen (Shared answer drift) X Y) (asks : X.1.Asks ok) :
    Y.1.Asks ok := by
  induction run with
  | refl => exact asks
  | tail _ moved ih =>
    cases moved with
    | call _ => exact ih.2 _
    | turn => exact ih.unroll
    | drift _ => exact ih

/-- A run that nobody disturbs is still in the first program, or that one has ended on the way. -/
theorem alone_bind {p : Program I α} {f : α → Program I β}
    (run : ReflTransGen (Alone answer) (p.bind f, e) Y) :
    (∃ q e₁, ReflTransGen (Alone answer) (p, e) (q, e₁) ∧ Y = (q.bind f, e₁)) ∨
      ∃ a e₁, ReflTransGen (Alone answer) (p, e) (.ret a, e₁) ∧ ReflTransGen (Alone answer) (f a, e₁) Y := by
  induction run with
  | refl => exact .inl ⟨p, e, .refl, rfl⟩
  | tail _ moved ih =>
    rcases ih with ⟨q, e₁, run, rfl⟩ | ⟨a, e₁, run, rest⟩
    · rcases moved.split with ⟨a, rfl⟩ | ⟨q₁, e₂, own, rfl⟩
      · exact .inr ⟨a, e₁, run, .single moved⟩
      · exact .inl ⟨q₁, e₂, run.tail own, rfl⟩
    · exact .inr ⟨a, e₁, run, rest.tail moved⟩

theorem runs_of_alone {h : Handler I E} {p : Program I α}
    (run : ReflTransGen (Alone fun e op r e₁ => h e op = some (r, e₁)) (p, e) (.ret a, e₁)) : Runs h p e a e₁ := by
  generalize whole : (p, e) = X at run
  induction run using ReflTransGen.head_induction_on generalizing p e with
  | refl =>
    cases whole
    exact .ret
  | head moved _ ih =>
    cases whole
    cases moved with
    | call answered => exact .call answered (ih rfl)
    | turn => exact .loop (ih rfl)
    | drift changed => exact changed.elim

/-- A run as far as `n` steps go. -/
def walk (h : Handler I E) : Nat → Program I α × E → Option (Program I α × E)
  | 0, X => some X
  | _ + 1, (.ret _, _) => none
  | n + 1, (.call op k, e) => (h e op).bind fun answer => walk h n (k answer.1, answer.2)
  | n + 1, (.loop b body k, e) => walk h n (unroll b body k, e)

/-- Others may change the environment where it has come to. -/
theorem shared_of_walk {h : Handler I E} (allowed : ∀ e op r e₁, h e op = some (r, e₁) → answer e op r e₁)
    {X Y : Program I α × E} (walked : walk h n X = some Y) : ReflTransGen (Shared answer drift) X Y := by
  induction n generalizing X with
  | zero =>
    cases walked
    exact .refl
  | succ n ih =>
    obtain ⟨p, e⟩ := X
    cases p with
    | ret a => cases walked
    | call op k =>
      obtain ⟨⟨r, e₁⟩, asked, walked⟩ := Option.bind_eq_some_iff.mp walked
      exact .head (.call (allowed _ _ _ _ asked)) (ih walked)
    | loop b body k => exact .head .turn (ih walked)

/-- The places that a program comes to, whatever it is answered. -/
inductive Leads (p : Program I α) : Program I α → Prop where
  | here : Leads p p
  | call {op : I.Op} {k : I.Reply op → Program I α} (r : I.Reply op) : Leads p (.call op k) → Leads p (k r)
  | turn : Leads p (.loop b body k) → Leads p (unroll b body k)

theorem Leads.step {p : Program I α} (leads : Leads p q) (moved : Shared answer drift (q, e) (q₁, e₁)) :
    Leads p q₁ := by
  cases moved with
  | call _ => exact .call _ leads
  | turn => exact .turn leads
  | drift _ => exact leads

end

/-! Protocols that a program follows among such changes. -/

/-- A protocol whose positions are the environment, which others change after each request. -/
structure Protocol.Among (R : Protocol I E) : Prop where
  after : answer e op r e₁ → ReflTransGen drift e₁ e₂ → R.after e plan op r e₂
  turn : R.turn e = e

/-- Whatever others change, from now on too, the program follows the protocol and ends as `post` says. -/
def Lasts (R : Protocol I E) (p : Program I α) (post : α → E → Prop) (e : E) : Prop :=
  ∀ e₁, ReflTransGen drift e e₁ → p.Obeys R post e₁

/-- All requests are allowed, and others change the environment after each. -/
def relying : Protocol I E where
  Plan := Unit
  permits _ _ _ := True
  after e _ op r e₂ := ∃ e₁, answer e op r e₁ ∧ ReflTransGen drift e₁ e₂
  mayTurn _ := True
  turn e := e

/-- Whatever others change, from now on too, the program ends as `post` says. -/
def Secured (p : Program I α) (post : α → E → Prop) (e : E) : Prop :=
  ∀ e₁, ReflTransGen drift e e₁ → p.Obeys (relying answer drift) post e₁

variable {answer drift}

theorem Lasts.step {R : Protocol I E} {post : α → E → Prop} (among : R.Among answer drift)
    (lasts : Lasts drift R p post e) (moved : Shared answer drift (p, e) (p₁, e₁)) : Lasts drift R p₁ post e₁ := by
  cases moved with
  | call answered =>
    obtain ⟨_, _, next⟩ := lasts e .refl
    exact fun e₂ drifted => next _ e₂ (among.after answered drifted)
  | turn =>
    intro e₁ drifted
    have turned := (lasts e₁ drifted).unroll.2
    rwa [among.turn] at turned
  | drift changed => exact fun e₂ drifted => lasts e₂ (.head changed drifted)

theorem relying_among : (relying answer drift).Among answer drift :=
  ⟨fun answered drifted => ⟨_, answered, drifted⟩, rfl⟩

theorem obeys_relying {op : I.Op} {k : I.Reply op → Program I α} {post : α → E → Prop}
    (next : ∀ r e₁, answer e op r e₁ → Secured answer drift (k r) post e₁) :
    (Program.call op k).Obeys (relying answer drift) post e := by
  refine ⟨(), trivial, ?_⟩
  rintro r e₂ ⟨e₁, answered, drifted⟩
  exact next r e₁ answered e₂ drifted

/-- A loop, by an invariant of its own. -/
theorem obeys_relying_loop {body : β → Program I (β ⊕ γ)} {k : γ → Program I α} {post : α → E → Prop}
    (Inv : β → E → Prop) (start : Inv b e) (turns : ∀ b e, Inv b e → (body b).Obeys (relying answer drift) (fun
      | .inl b, e => Inv b e
      | .inr c, e => (k c).Obeys (relying answer drift) post e) e) :
    (Program.loop b body k).Obeys (relying answer drift) post e :=
  ⟨Inv, start, fun b e inv => ⟨trivial, turns b e inv⟩⟩

theorem Secured.step {post : α → E → Prop} (secured : Secured answer drift p post e)
    (moved : Shared answer drift (p, e) (p₁, e₁)) : Secured answer drift p₁ post e₁ :=
  Lasts.step relying_among secured moved

theorem Secured.ret {post : α → E → Prop} (secured : Secured answer drift (.ret a) post e) : post a e :=
  secured e .refl

/-! The same, with something that holds at every request and whatever others change. -/

variable {good : E → Prop}

def upholding (answer : E → (op : I.Op) → I.Reply op → E → Prop) (drift : E → E → Prop) (good : E → Prop) :
    Protocol I E where
  Plan := Unit
  permits e _ _ := good e
  after e _ op r e₂ := ∃ e₁, answer e op r e₁ ∧ ReflTransGen drift e₁ e₂
  mayTurn := good
  turn e := e

/-- Whatever others change, it holds all along and the program ends as `post` says. -/
def Upheld (answer : E → (op : I.Op) → I.Reply op → E → Prop) (drift : E → E → Prop) (good : E → Prop)
    (p : Program I α) (post : α → E → Prop) (e : E) : Prop :=
  ∀ e₁, ReflTransGen drift e e₁ → p.Obeys (upholding answer drift good) (fun a e => good e ∧ post a e) e₁

theorem obeys_upholding {op : I.Op} {k : I.Reply op → Program I α} {post : α → E → Prop} (now : good e)
    (next : ∀ r e₁ e₂, answer e op r e₁ → ReflTransGen drift e₁ e₂ → (k r).Obeys (upholding answer drift good) post e₂) :
    (Program.call op k).Obeys (upholding answer drift good) post e := by
  refine ⟨(), now, ?_⟩
  rintro r e₂ ⟨e₁, answered, drifted⟩
  exact next r e₁ e₂ answered drifted

theorem obeys_upholding_loop {body : β → Program I (β ⊕ γ)} {k : γ → Program I α} {post : α → E → Prop}
    (Inv : β → E → Prop) (start : Inv b e) (turns : ∀ b e, Inv b e → good e ∧ (body b).Obeys (upholding answer drift good) (fun
      | .inl b, e => Inv b e
      | .inr c, e => (k c).Obeys (upholding answer drift good) post e) e) :
    (Program.loop b body k).Obeys (upholding answer drift good) post e :=
  ⟨Inv, start, turns⟩

theorem Upheld.now {post : α → E → Prop} (upheld : Upheld answer drift good p post e) : good e := by
  have obeys := upheld e .refl
  cases p with
  | ret a => exact obeys.1
  | call op k =>
    obtain ⟨_, now, _⟩ := obeys
    exact now
  | loop b body k => exact obeys.unroll.1

theorem upholding_among : (upholding answer drift good).Among answer drift :=
  ⟨fun answered drifted => ⟨_, answered, drifted⟩, rfl⟩

theorem Upheld.step {post : α → E → Prop} (upheld : Upheld answer drift good p post e)
    (moved : Shared answer drift (p, e) (p₁, e₁)) : Upheld answer drift good p₁ post e₁ :=
  Lasts.step upholding_among upheld moved

theorem Upheld.run {post : α → E → Prop} (upheld : Upheld answer drift good X.1 post X.2)
    (run : ReflTransGen (Shared answer drift) X Y) : good Y.2 := by
  have still : Upheld answer drift good Y.1 post Y.2 := by
    induction run with
    | refl => exact upheld
    | tail _ moved ih => exact ih.step moved
  exact still.now

/-! What a program requests, whatever others change. -/

/-- Requests are allowed by what they are and the environment that they are made in. -/
def heeding (answer : E → (op : I.Op) → I.Reply op → E → Prop) (drift : E → E → Prop) (ok : E → I.Op → Prop) :
    Protocol I E where
  Plan := Unit
  permits e op _ := ok e op
  after e _ op r e₂ := ∃ e₁, answer e op r e₁ ∧ ReflTransGen drift e₁ e₂
  mayTurn _ := True
  turn e := e

theorem heeding_among {ok : E → I.Op → Prop} : (heeding answer drift ok).Among answer drift :=
  ⟨fun answered drifted => ⟨_, answered, drifted⟩, rfl⟩

theorem obeys_heeding {ok : E → I.Op → Prop} {op : I.Op} {k : I.Reply op → Program I α} {post : α → E → Prop}
    (allowed : ok e op) (next : ∀ r e₁ e₂, answer e op r e₁ → ReflTransGen drift e₁ e₂ →
      (k r).Obeys (heeding answer drift ok) post e₂) :
    (Program.call op k).Obeys (heeding answer drift ok) post e := by
  refine ⟨(), allowed, ?_⟩
  rintro r e₂ ⟨e₁, answered, drifted⟩
  exact next r e₁ e₂ answered drifted

theorem obeys_heeding_loop {ok : E → I.Op → Prop} {body : β → Program I (β ⊕ γ)} {k : γ → Program I α}
    {post : α → E → Prop} (Inv : β → E → Prop) (start : Inv b e)
    (turns : ∀ b e, Inv b e → (body b).Obeys (heeding answer drift ok) (fun
      | .inl b, e => Inv b e
      | .inr c, e => (k c).Obeys (heeding answer drift ok) post e) e) :
    (Program.loop b body k).Obeys (heeding answer drift ok) post e :=
  ⟨Inv, start, fun b e inv => ⟨trivial, turns b e inv⟩⟩

/-- A program all of whose requests are allowed at any time. -/
theorem obeys_heeding_of_asks {ok : E → I.Op → Prop} {p : Program I α} (asks : p.Asks fun op => ∀ e, ok e op) :
    p.Obeys (heeding answer drift ok) (fun _ _ => True) e := by
  induction p generalizing e with
  | ret a => trivial
  | call op k ih => exact obeys_heeding (asks.1 e) fun r e₁ e₂ _ _ => ih r (asks.2 r)
  | loop b body k ihb ihk =>
    refine obeys_heeding_loop (fun _ _ => True) trivial fun b e _ => (ihb b (asks.1 b)).mono ?_
    rintro (b | c) e _
    · trivial
    · exact ihk c (asks.2 c)

end
end Process
