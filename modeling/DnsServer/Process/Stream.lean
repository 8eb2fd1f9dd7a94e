import DnsServer.Process.Machine

/-! Two programs at the ends of one byte stream. A receive takes any part of what has come and a
memory answers as it likes, so that a goal is one that every way on comes to. -/
namespace Process

/-- Every way on comes to the goal, and none is stuck before it. -/
inductive Inevitable (R : α → α → Prop) (goal : α → Prop) : α → Prop where
  | here : goal a → Inevitable R goal a
  | later : (∃ b, R a b) → (∀ b, R a b → Inevitable R goal b) → Inevitable R goal a

theorem Inevitable.trans {R : α → α → Prop} {goal goal₁ : α → Prop} (first : Inevitable R goal a)
    (second : ∀ b, goal b → Inevitable R goal₁ b) : Inevitable R goal₁ a := by
  induction first with
  | here reached => exact second _ reached
  | later able _ ih => exact .later able ih

/-- `inbox` holds the bytes that have yet to be received. -/
structure Party (P : Platform) where
  program : P.Thread UInt8
  inbox : List UInt8
  closed : Bool

section
variable {P : Platform}

def Party.hear (e : Party P) (said : List UInt8) : Party P := { e with inbox := e.inbox ++ said }

/-- The next request of end `d`, what it said in it and whether it connected; `gone` is whether the
other end has closed. -/
inductive Party.Step (answer : (op : P.Op) → P.Reply op → Prop) (d : Side) (linked gone : Bool) :
    Party P → Party P → List UInt8 → Bool → Prop where
  | turn {body : β → P.Thread (β ⊕ γ)} {k : γ → P.Thread UInt8} : Step answer d linked gone
      ⟨.loop b body k, heard, shut⟩ ⟨Program.unroll b body k, heard, shut⟩ [] false
  | connect {k : Socket → P.Thread UInt8} : d = .client → Step answer d linked gone
      ⟨@Program.call P.interface _ (.connect a) k, heard, shut⟩ ⟨k ⟨0, .client⟩, heard, shut⟩ [] true
  | accept {k : Socket → P.Thread UInt8} : d = .server → linked = true → Step answer d linked gone
      ⟨@Program.call P.interface _ (.accept a) k, heard, shut⟩ ⟨k ⟨0, .server⟩, heard, shut⟩ [] false
  | send {k : Bool → P.Thread UInt8} : Step answer d linked gone
      ⟨@Program.call P.interface _ (.send ⟨0, d⟩ bytes) k, heard, false⟩ ⟨k true, heard, false⟩ bytes false
  | recv {k : Option (List UInt8) → P.Thread UInt8} : heard = got ++ rest → got ≠ [] → got.length ≤ len →
      Step answer d linked gone
        ⟨@Program.call P.interface _ (.recv ⟨0, d⟩ len) k, heard, shut⟩ ⟨k (some got), rest, shut⟩ [] false
  | ended {k : Option (List UInt8) → P.Thread UInt8} : gone = true → Step answer d linked gone
      ⟨@Program.call P.interface _ (.recv ⟨0, d⟩ len) k, [], shut⟩ ⟨k (some []), [], shut⟩ [] false
  | close {k : Unit → P.Thread UInt8} : Step answer d linked gone
      ⟨@Program.call P.interface _ (.close ⟨0, d⟩) k, heard, shut⟩ ⟨k (), heard, true⟩ [] false
  | lock {k : Unit → P.Thread UInt8} : Step answer d linked gone
      ⟨@Program.call P.interface _ (.lock l) k, heard, shut⟩ ⟨k (), heard, shut⟩ [] false
  | unlock {k : Unit → P.Thread UInt8} : Step answer d linked gone
      ⟨@Program.call P.interface _ (.unlock l) k, heard, shut⟩ ⟨k (), heard, shut⟩ [] false
  | act {k : P.Reply op → P.Thread UInt8} : answer op r → Step answer d linked gone
      ⟨@Program.call P.interface _ (.act op) k, heard, shut⟩ ⟨k r, heard, shut⟩ [] false

/-- `linked` is whether the client has connected. -/
structure Stream (P : Platform) where
  client : Party P
  server : Party P
  linked : Bool

/-- One step of either end, each of which has a memory of its own. -/
inductive Stream.Moves (answer : Side → (op : P.Op) → P.Reply op → Prop) : Stream P → Stream P → Prop where
  | client : Party.Step (answer .client) .client X.linked X.server.closed X.client e said l →
      Moves answer X ⟨e, X.server.hear said, X.linked || l⟩
  | server : Party.Step (answer .server) .server X.linked X.client.closed X.server e said l →
      Moves answer X ⟨X.client.hear said, e, X.linked || l⟩

/-- Whatever its memory answers, the program comes to `q` without the help of the other end. -/
inductive Approaches (answer : (op : P.Op) → P.Reply op → Prop) (q : P.Thread UInt8) : P.Thread UInt8 → Prop where
  | here : Approaches answer q q
  | turn {body : β → P.Thread (β ⊕ γ)} {k : γ → P.Thread UInt8} :
      Approaches answer q (Program.unroll b body k) → Approaches answer q (.loop b body k)
  | lock {k : Unit → P.Thread UInt8} :
      Approaches answer q (k ()) → Approaches answer q (@Program.call P.interface _ (.lock l) k)
  | act {k : P.Reply op → P.Thread UInt8} : (∃ r, answer op r) → (∀ r, answer op r → Approaches answer q (k r)) →
      Approaches answer q (@Program.call P.interface _ (.act op) k)

/-- An operation that has one answer only. -/
theorem Approaches.ask {answer : (op : P.Op) → P.Reply op → Prop} {k : P.Reply op → P.Thread UInt8}
    (known : ∀ r₁, answer op r₁ ↔ r₁ = r) (rest : Approaches answer q (k r)) :
    Approaches answer q (@Program.call P.interface _ (.act op) k) := by
  apply Approaches.act
  · exact ⟨r, (known r).mpr rfl⟩
  · intro r₁ answered
    rwa [(known r₁).mp answered]

/-- A receive waits until something comes. -/
theorem Party.not_step_waiting {answer : (op : P.Op) → P.Reply op → Prop} {k : Option (List UInt8) → P.Thread UInt8} :
    ¬ Step answer d linked false ⟨@Program.call P.interface _ (.recv s len) k, [], shut⟩ e said l := by
  intro step
  cases step with
  | recv parts some _ =>
    obtain ⟨none, _⟩ := List.append_eq_nil_iff.mp parts.symm
    exact some none
  | ended gone => cases gone

/-- A receive takes all that has come, if there is room for it. -/
theorem Party.exists_step_recv {answer : (op : P.Op) → P.Reply op → Prop} {k : Option (List UInt8) → P.Thread UInt8}
    (come : heard ≠ []) (room : heard.length ≤ len) :
    ∃ e said l, Step answer d linked gone ⟨@Program.call P.interface _ (.recv ⟨0, d⟩ len) k, heard, shut⟩ e said l :=
  ⟨_, _, _, .recv (List.append_nil _).symm come room⟩

/-- A receive of what cannot be split. -/
theorem Party.step_last {answer : (op : P.Op) → P.Reply op → Prop} {k : Option (List UInt8) → P.Thread UInt8}
    (step : Step answer d linked false ⟨@Program.call P.interface _ (.recv s len) k, [b], shut⟩ e said l) :
    e = ⟨k (some [b]), [], shut⟩ ∧ said = [] ∧ l = false := by
  cases step with
  | @recv _ got rest _ _ _ parts some short =>
    cases got with
    | nil => exact absurd rfl some
    | cons a got =>
      simp only [List.cons_append, List.cons.injEq, List.nil_eq, List.append_eq_nil_iff] at parts
      obtain ⟨rfl, rfl, rfl⟩ := parts
      exact ⟨rfl, rfl, rfl⟩

variable {answer : Side → (op : P.Op) → P.Reply op → Prop} {goal : Stream P → Prop}

/-- Beside a client, the server comes to `q`, unless the client moves before. -/
theorem Inevitable.toward (toward : Approaches (answer .server) q p)
    (client : ∀ p₁ e said l, Approaches (answer .server) q p₁ →
      Party.Step (answer .client) .client linked false c e said l →
      Inevitable (Stream.Moves answer) goal ⟨e, ⟨p₁, inbox ++ said, false⟩, linked || l⟩)
    (last : Inevitable (Stream.Moves answer) goal ⟨c, ⟨q, inbox, false⟩, linked⟩) :
    Inevitable (Stream.Moves answer) goal ⟨c, ⟨p, inbox, false⟩, linked⟩ := by
  induction toward with
  | here => exact last
  | turn rest ih =>
    refine .later ⟨_, .server .turn⟩ ?_
    rintro _ (step | step)
    · exact client _ _ _ _ (.turn rest) step
    · cases step
      simpa [Party.hear] using ih
  | lock rest ih =>
    refine .later ⟨_, .server .lock⟩ ?_
    rintro _ (step | step)
    · exact client _ _ _ _ (.lock rest) step
    · cases step
      simpa [Party.hear] using ih
  | act able rest ih =>
    obtain ⟨r, answered⟩ := able
    refine .later ⟨_, .server (.act answered)⟩ ?_
    rintro _ (step | step)
    · exact client _ _ _ _ (.act ⟨r, answered⟩ rest) step
    · cases step with
      | act answered => simpa [Party.hear] using ih _ answered

/-- A client that waits leaves the server to come to its next request, and to make it. -/
theorem Inevitable.served {k : Option (List UInt8) → P.Thread UInt8} (toward : Approaches (answer .server) q p)
    (able : ∃ e said l, Party.Step (answer .server) .server linked closed ⟨q, inbox, false⟩ e said l)
    (server : ∀ e said l, Party.Step (answer .server) .server linked closed ⟨q, inbox, false⟩ e said l →
      Inevitable (Stream.Moves answer) goal
        ⟨⟨@Program.call P.interface _ (.recv s len) k, said, closed⟩, e, linked || l⟩) :
    Inevitable (Stream.Moves answer) goal
      ⟨⟨@Program.call P.interface _ (.recv s len) k, [], closed⟩, ⟨p, inbox, false⟩, linked⟩ := by
  refine .toward toward (fun _ _ _ _ _ step => (Party.not_step_waiting step).elim) ?_
  obtain ⟨e, said, l, step⟩ := able
  refine .later ⟨_, .server step⟩ ?_
  rintro _ (step | step)
  · exact (Party.not_step_waiting step).elim
  · exact server _ _ _ step

/-- A client that can move does so before a server that comes to wait has anything to receive. -/
theorem Inevitable.ahead {next : Option (List UInt8) → P.Thread UInt8}
    (toward : Approaches (answer .server) (@Program.call P.interface _ (.recv s len) next) p)
    (able : ∃ e said l, Party.Step (answer .client) .client linked false ⟨c, heard, false⟩ e said l)
    (client : ∀ p₁ e said l, Approaches (answer .server) (@Program.call P.interface _ (.recv s len) next) p₁ →
      Party.Step (answer .client) .client linked false ⟨c, heard, false⟩ e said l →
      Inevitable (Stream.Moves answer) goal ⟨e, ⟨p₁, said, false⟩, linked || l⟩) :
    Inevitable (Stream.Moves answer) goal ⟨⟨c, heard, false⟩, ⟨p, [], false⟩, linked⟩ := by
  refine .toward toward client ?_
  obtain ⟨e, said, l, step⟩ := able
  refine .later ⟨_, .client step⟩ ?_
  rintro _ (step | step)
  · exact client _ _ _ _ .here step
  · exact (Party.not_step_waiting step).elim

end
end Process
