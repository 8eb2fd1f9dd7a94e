import DnsServer.Process.Protocol

/-! What a program asks and is answered, whatever answers it. -/
namespace Process

/-- A request and its answer. -/
structure Event (I : Interface) where
  op : I.Op
  reply : I.Reply op

namespace Program
variable {I : Interface} {α β γ : Type}

/-- The program may go through these requests and answers, and end so. -/
inductive Traces : Program I α → List (Event I) → α → Prop where
  | ret : Traces (.ret a) [] a
  | call {k : I.Reply op → Program I α} : Traces (k r) tr a → Traces (.call op k) (⟨op, r⟩ :: tr) a
  | loop : Traces (unroll b body k) tr a → Traces (.loop b body k) tr a

/-- After these requests and answers the program makes this request. -/
inductive Requests : Program I α → List (Event I) → I.Op → Prop where
  | here {k : I.Reply op → Program I α} : Requests (.call op k) [] op
  | call {k : I.Reply op₁ → Program I α} : Requests (k r) tr op → Requests (.call op₁ k) (⟨op₁, r⟩ :: tr) op
  | loop : Requests (unroll b body k) tr op → Requests (.loop b body k) tr op

/-- The environment gives these answers, one after the other. -/
inductive Answered {E : Type} (h : Handler I E) : E → List (Event I) → E → Prop where
  | nil : Answered h e [] e
  | cons : h e op = some (r, e₁) → Answered h e₁ tr e₂ → Answered h e (⟨op, r⟩ :: tr) e₂

variable {tr : List (Event I)}

@[simp] theorem traces_ret_iff : Traces (.ret a : Program I α) tr b ↔ b = a ∧ tr = [] := by
  constructor
  · intro traced
    cases traced
    exact ⟨rfl, rfl⟩
  · rintro ⟨rfl, rfl⟩
    exact .ret

theorem traces_call_iff {op : I.Op} {k : I.Reply op → Program I α} :
    Traces (.call op k) tr a ↔ ∃ r rest, tr = ⟨op, r⟩ :: rest ∧ Traces (k r) rest a := by
  constructor
  · intro traced
    cases traced with
    | call rest => exact ⟨_, _, rfl, rest⟩
  · rintro ⟨r, rest, rfl, traced⟩
    exact .call traced

theorem traces_call_cons {op : I.Op} {k : I.Reply op → Program I α} {r : I.Reply op} :
    Traces (.call op k) (⟨op, r⟩ :: tr) a ↔ Traces (k r) tr a := by
  constructor
  · intro traced
    cases traced with
    | call rest => exact rest
  · exact .call

theorem traces_loop_iff {body : β → Program I (β ⊕ γ)} {k : γ → Program I α} :
    Traces (.loop b body k) tr a ↔ Traces (unroll b body k) tr a := by
  constructor
  · intro traced
    cases traced with
    | loop turn => exact turn
  · exact .loop

theorem Traces.bind {p : Program I α} {f : α → Program I β} (first : Traces p tr a)
    (second : Traces (f a) tr₁ b) : Traces (p.bind f) (tr ++ tr₁) b := by
  induction first with
  | ret => exact second
  | call _ ih => exact .call (ih second)
  | loop _ ih => exact .loop (by simpa only [unroll_bind] using ih second)

theorem Traces.split {p : Program I α} {f : α → Program I β} (traced : Traces (p.bind f) tr b) :
    ∃ a before after, tr = before ++ after ∧ Traces p before a ∧ Traces (f a) after b := by
  generalize whole : p.bind f = q at traced
  induction traced generalizing p with
  | ret =>
    cases p with
    | ret a =>
      refine ⟨a, [], [], rfl, .ret, ?_⟩
      rw [show f a = .ret _ from whole]
      exact .ret
    | call op k => cases whole
    | loop b body k => cases whole
  | call rest ih =>
    cases p with
    | ret a =>
      refine ⟨a, [], _, rfl, .ret, ?_⟩
      rw [show f a = _ from whole]
      exact .call rest
    | call op k =>
      cases whole
      obtain ⟨a, before, after, rfl, first, second⟩ := ih rfl
      exact ⟨a, _, after, rfl, .call first, second⟩
    | loop b body k => cases whole
  | loop turn ih =>
    cases p with
    | ret a =>
      refine ⟨a, [], _, rfl, .ret, ?_⟩
      rw [show f a = _ from whole]
      exact .loop turn
    | call op k => cases whole
    | loop b body k =>
      cases whole
      obtain ⟨a, before, after, rfl, first, second⟩ := ih (unroll_bind _ _ _ _)
      exact ⟨a, before, after, rfl, .loop first, second⟩

/-- A run is a trace that the environment answers. -/
theorem runs_iff_traces {E : Type} {h : Handler I E} {p : Program I α} {e e₁ : E} :
    Runs h p e a e₁ ↔ ∃ tr, Traces p tr a ∧ Answered h e tr e₁ := by
  constructor
  · intro ran
    induction ran with
    | ret => exact ⟨[], .ret, .nil⟩
    | call asked _ ih =>
      obtain ⟨tr, traced, answered⟩ := ih
      exact ⟨_, .call traced, .cons asked answered⟩
    | loop _ ih =>
      obtain ⟨tr, traced, answered⟩ := ih
      exact ⟨tr, .loop traced, answered⟩
  · rintro ⟨tr, traced, answered⟩
    induction traced generalizing e with
    | ret =>
      cases answered
      exact .ret
    | call _ ih =>
      cases answered with
      | cons asked rest => exact .call asked (ih rest)
    | loop _ ih => exact .loop (ih answered)

theorem requests_call_iff {op op₁ : I.Op} {k : I.Reply op₁ → Program I α} :
    Requests (.call op₁ k) tr op ↔ tr = [] ∧ op = op₁ ∨ ∃ r rest, tr = ⟨op₁, r⟩ :: rest ∧ Requests (k r) rest op := by
  constructor
  · intro requested
    cases requested with
    | here => exact .inl ⟨rfl, rfl⟩
    | call rest => exact .inr ⟨_, _, rfl, rest⟩
  · rintro (⟨rfl, rfl⟩ | ⟨r, rest, rfl, requested⟩)
    · exact .here
    · exact .call requested

theorem requests_loop_iff {op : I.Op} {body : β → Program I (β ⊕ γ)} {k : γ → Program I α} :
    Requests (.loop b body k) tr op ↔ Requests (unroll b body k) tr op := by
  constructor
  · intro requested
    cases requested with
    | loop turn => exact turn
  · exact .loop

/-- Each request of a trace is made after the events before it. -/
theorem Traces.requests {p : Program I α} {event : Event I} (traced : Traces p (before ++ event :: after) a) :
    Requests p before event.op := by
  generalize whole : before ++ event :: after = tr at traced
  induction traced generalizing before with
  | ret => simp at whole
  | call _ ih =>
    cases before with
    | nil =>
      cases whole
      exact .here
    | cons first before =>
      cases whole
      exact .call (ih rfl)
  | loop _ ih => exact .loop (ih whole)

/-- Every request that the program can make is one of these. -/
def Asks (ok : I.Op → Prop) : {α : Type} → Program I α → Prop
  | _, .ret _ => True
  | _, .call op k => ok op ∧ ∀ r, (k r).Asks ok
  | _, .loop _ body k => (∀ b, (body b).Asks ok) ∧ ∀ c, (k c).Asks ok

variable {ok : I.Op → Prop}

theorem Asks.call {op : I.Op} {k : I.Reply op → Program I α} (asked : ok op) (next : ∀ r, (k r).Asks ok) :
    (Program.call op k).Asks ok :=
  ⟨asked, next⟩

theorem Asks.bind {p : Program I α} {f : α → Program I β} (asks : p.Asks ok) (next : ∀ a, (f a).Asks ok) :
    (p.bind f).Asks ok := by
  induction p with
  | ret a => exact next a
  | call op k ih => exact ⟨asks.1, fun r => ih r (asks.2 r) next⟩
  | loop b body k _ ih => exact ⟨asks.1, fun c => ih c (asks.2 c) next⟩

theorem Asks.mono {p : Program I α} {ok₁ : I.Op → Prop} (weaker : ∀ op, ok op → ok₁ op) (asks : p.Asks ok) :
    p.Asks ok₁ := by
  induction p with
  | ret a => trivial
  | call op k ih => exact ⟨weaker op asks.1, fun r => ih r (asks.2 r)⟩
  | loop b body k ihb ihk => exact ⟨fun b => ihb b (asks.1 b), fun c => ihk c (asks.2 c)⟩

theorem Asks.unroll {b : β} {body : β → Program I (β ⊕ γ)} {k : γ → Program I α}
    (asks : (Program.loop b body k).Asks ok) : (unroll b body k).Asks ok := by
  apply Asks.bind (asks.1 b)
  rintro (b | c)
  · exact asks
  · exact asks.2 c

theorem Asks.traces {p : Program I α} (asks : p.Asks ok) (traced : Traces p tr a) :
    ∀ event ∈ tr, ok event.op := by
  induction traced with
  | ret => simp
  | call _ ih => exact List.forall_mem_cons.mpr ⟨asks.1, ih (asks.2 _)⟩
  | loop _ ih => exact ih asks.unroll

theorem Asks.requests {p : Program I α} {op : I.Op} (asks : p.Asks ok) (requested : Requests p tr op) : ok op := by
  induction requested with
  | here => exact asks.1
  | call _ ih => exact ih (asks.2 _)
  | loop _ ih => exact ih asks.unroll

section
variable {E : Type} {h h₁ : Handler I E} {p : Program I α} {e e₁ : E}

/-- A run keeps what none of its requests changes. -/
theorem Asks.runs {f : E → β} (keeps : ∀ e op r e₁, ok op → h e op = some (r, e₁) → f e₁ = f e)
    (asks : p.Asks ok) (ran : Runs h p e a e₁) : f e₁ = f e := by
  induction ran with
  | ret => rfl
  | call asked _ ih => exact (ih (asks.2 _)).trans (keeps _ _ _ _ asks.1 asked)
  | loop _ ih => exact ih asks.unroll

/-- A run goes on in an environment that has another in it, when that answers all requests. -/
theorem Asks.embed {E₁ : Type} {h₁ : Handler I E₁} {f : E → E₁}
    (answers : ∀ e op r e₁, ok op → h e op = some (r, e₁) → h₁ (f e) op = some (r, f e₁)) (asks : p.Asks ok)
    (ran : Runs h p e a e₁) : Runs h₁ p (f e) a (f e₁) := by
  induction ran with
  | ret => exact .ret
  | call asked _ ih => exact .call (answers _ _ _ _ asks.1 asked) (ih (asks.2 _))
  | loop _ ih => exact .loop (ih asks.unroll)

/-- A run in an environment that has another in it is one in that, when that gave all answers. -/
theorem Asks.reflect {E₁ : Type} {h₁ : Handler I E₁} {f : E → E₁} {E₂ : E₁}
    (answered : ∀ e op r E₂, ok op → h₁ (f e) op = some (r, E₂) → ∃ e₁, h e op = some (r, e₁) ∧ E₂ = f e₁)
    (asks : p.Asks ok) (ran : Runs h₁ p (f e) a E₂) : ∃ e₁, Runs h p e a e₁ ∧ E₂ = f e₁ := by
  generalize whole : f e = E₀ at ran
  induction ran generalizing e with
  | ret => exact ⟨e, .ret, whole.symm⟩
  | call asked _ ih =>
    subst whole
    obtain ⟨e₁, inner, rfl⟩ := answered _ _ _ _ asks.1 asked
    obtain ⟨e₂, ran, same⟩ := ih (asks.2 _) rfl
    exact ⟨e₂, .call inner ran, same⟩
  | loop _ ih =>
    obtain ⟨e₁, ran, same⟩ := ih asks.unroll whole
    exact ⟨e₁, .loop ran, same⟩

/-- Environments that answer a program's requests alike run it alike. -/
theorem Asks.transfer (agree : ∀ e op, ok op → h₁ e op = h e op) (asks : p.Asks ok)
    (ran : Runs h p e a e₁) : Runs h₁ p e a e₁ := by
  induction ran with
  | ret => exact .ret
  | call asked _ ih => exact .call ((agree _ _ asks.1).trans asked) (ih (asks.2 _))
  | loop _ ih => exact .loop (ih asks.unroll)

end

/-- All requests are allowed, and the position is all that has been asked and answered. -/
def recording (I : Interface) : Protocol I (List (Event I)) where
  Plan := Unit
  permits _ _ _ := True
  after before _ op r now := now = before ++ [⟨op, r⟩]
  mayTurn _ := True
  turn before := before

theorem obeys_recording {op : I.Op} {k : I.Reply op → Program I α} {post : α → List (Event I) → Prop}
    (next : ∀ r, (k r).Obeys (recording I) post (before ++ [⟨op, r⟩])) :
    (Program.call op k).Obeys (recording I) post before := by
  refine ⟨(), trivial, ?_⟩
  rintro r _ rfl
  exact next r

theorem Obeys.traces {p : Program I α} {post : α → List (Event I) → Prop} (obeys : p.Obeys (recording I) post before)
    (traced : Traces p tr a) : post a (before ++ tr) := by
  induction traced generalizing before with
  | ret =>
    rw [List.append_nil]
    exact obeys
  | @call op r tr a k _ ih =>
    obtain ⟨_, _, next⟩ := obeys
    have rest := ih (next r _ rfl)
    rwa [List.append_assoc, List.singleton_append] at rest
  | loop _ ih => exact ih obeys.unroll.2

end Program
end Process
