import DnsServer.Process.Machine
import Mathlib.Data.List.Nodup

/-! Conversations in which the two sides of a connection take turns. What each side knows of its
conversation is no part of the machine; the connections keep it in step. -/
namespace Process

/-- The states of a conversation, each with the side whose turn it is unless all is said. To say
`none` is to hang up, and `hung` is the side that has. -/
structure Dialogue (T : Type) where
  speaker : T → Option Side
  speaks : T → Option (List UInt8) → T → Prop
  hung : T → Option Side
  turns : speaks τ msg τ₁ → ∃ d, speaker τ = some d ∧ speaker τ₁ ≠ some d
  ends : speaks τ none τ₁ → speaker τ₁ = none

section
variable {T : Type} (D : Dialogue T)

/-- Both sides know the same and nothing is on its way. -/
def Silent (view : Side → T) (c : Conn) : Prop := ∀ d, view d.other = view d ∧ c.inbox d = []

/-- What `d` has said is on its way. -/
structure Sent (view : Side → T) (c : Conn) (d : Side) (msg : Option (List UInt8)) : Prop where
  turn : D.speaker (view d.other) = some d
  said : D.speaks (view d.other) msg (view d)
  heard : c.inbox d = []
  flies : c.inbox d.other = msg.toList

structure Wire (view : Side → T) (c : Conn) : Prop where
  flight : Silent view c ∨ ∃ d msg, Sent D view c d msg
  closed : ∀ d, c.closed d = true → D.speaker (view d) = none

variable {D} {view : Side → T} {c : Conn} {d : Side}

theorem Sent.heardBy (sent : Sent D view c d.other msg) : D.speaks (view d) msg (view d.other) := by
  have said := sent.said
  rwa [Side.other_other] at said

theorem Silent.not_sent (settled : Silent view c) : ¬ Sent D view c d msg := by
  intro sent
  obtain ⟨e, speaker, silent⟩ := D.turns sent.said
  rw [(settled d).1] at speaker
  exact silent speaker

/-- At any time there is one side at most whose words are on their way. -/
theorem Sent.unique (sent : Sent D view c d msg) (sent₁ : Sent D view c e msg₁) : e = d := by
  rcases e.eq_or_other d with rfl | rfl
  · rfl
  have own := sent.flies.symm.trans sent₁.heard
  cases msg with
  | some bytes => cases own
  | none =>
    have turn := sent₁.turn
    rw [Side.other_other, D.ends sent.said] at turn
    cases turn

theorem wire_opened (τ : T) : Wire D (fun _ => τ) Conn.opened :=
  ⟨.inl fun _ => ⟨rfl, rfl⟩, by rintro _ ⟨⟩⟩

namespace Wire

/-- The side whose turn it is has heard everything. -/
theorem settled (wire : Wire D view c) (turn : D.speaker (view d) = some d) : Silent view c := by
  rcases wire.flight with settled | ⟨e, msg, sent⟩
  · exact settled
  · obtain ⟨f, speaker, silent⟩ := D.turns sent.said
    cases sent.turn.symm.trans speaker
    rcases d.eq_or_other e with rfl | rfl
    · exact absurd turn silent
    · have other := sent.turn.symm.trans turn
      exact absurd (Option.some.inj other) e.ne_other

theorem speak (wire : Wire D view c) (turn : D.speaker (view d) = some d)
    (said : D.speaks (view d) msg τ) (c₁ : Conn) (kept : c₁.inbox d = c.inbox d)
    (flies : c₁.inbox d.other = c.inbox d.other ++ msg.toList)
    (closed : ∀ e, c₁.closed e = true → c.closed e = true ∨ e = d ∧ msg = none) :
    Wire D (Function.update view d τ) c₁ ∧ Sent D (Function.update view d τ) c₁ d msg := by
  have settled := wire.settled turn
  have same : view d.other = view d := (settled d).1
  have sent : Sent D (Function.update view d τ) c₁ d msg := by
    constructor
    · rw [Function.update_of_ne d.other_ne, same]
      exact turn
    · rw [Function.update_of_ne d.other_ne, Function.update_self, same]
      exact said
    · rw [kept]
      exact (settled d).2
    · rw [flies, (settled d.other).2, List.nil_append]
  refine ⟨⟨.inr ⟨d, msg, sent⟩, ?_⟩, sent⟩
  · intro e shut
    have unfinished : c.closed e ≠ true := by
      intro shut
      have finished := wire.closed e shut
      rcases e.eq_or_other d with rfl | rfl
      · rw [turn] at finished
        cases finished
      · rw [same, turn] at finished
        cases finished
    obtain ⟨rfl, rfl⟩ := (closed e shut).resolve_left unfinished
    rw [Function.update_self]
    exact D.ends said

theorem say (wire : Wire D view c) (turn : D.speaker (view d) = some d)
    (said : D.speaks (view d) (some bytes) τ) :
    Wire D (Function.update view d τ) (c.push d.other bytes) ∧
      Sent D (Function.update view d τ) (c.push d.other bytes) d (some bytes) := by
  refine wire.speak turn said _ ?_ ?_ fun _ shut => .inl shut
  · exact Function.update_of_ne d.ne_other _ _
  · exact Function.update_self _ _ _

theorem hang (wire : Wire D view c) (turn : D.speaker (view d) = some d)
    (said : D.speaks (view d) none τ) :
    Wire D (Function.update view d τ) (c.shut d) ∧ Sent D (Function.update view d τ) (c.shut d) d none := by
  refine wire.speak turn said _ rfl ?_ ?_
  · exact (List.append_nil _).symm
  · intro e shut
    by_cases own : e = d
    · exact .inr ⟨own, rfl⟩
    · exact .inl ((Function.update_of_ne own _ _).symm.trans shut)

/-- Closing, once all is said, says nothing. -/
theorem shut (wire : Wire D view c) (done : D.speaker (view d) = none) : Wire D view (c.shut d) := by
  constructor
  · rcases wire.flight with settled | ⟨e, msg, sent⟩
    · exact .inl settled
    · exact .inr ⟨e, msg, sent.1, sent.2, sent.3, sent.4⟩
  · intro e shut
    by_cases own : e = d
    · rw [own]
      exact done
    · exact wire.closed e ((Function.update_of_ne own _ _).symm.trans shut)

/-- The other side knows what `d` has said once it has heard it. -/
theorem caughtUp (wire : Wire D view c) (sent : Sent D view c d msg) (c₁ : Conn)
    (empty : ∀ e, c₁.inbox e = []) (closed : c₁.closed = c.closed) :
    Wire D (Function.update view d.other (view d)) c₁ ∧
      Silent (Function.update view d.other (view d)) c₁ := by
  have same : ∀ e, Function.update view d.other (view d) e = view d := by
    intro e
    rcases e.eq_or_other d with rfl | rfl
    · exact Function.update_of_ne e.ne_other _ _
    · exact Function.update_self _ _ _
  have settled : Silent (Function.update view d.other (view d)) c₁ :=
    fun e => ⟨(same _).trans (same e).symm, empty e⟩
  refine ⟨⟨.inl settled, fun e shut => ?_⟩, settled⟩
  rw [same]
  rw [closed] at shut
  rcases e.eq_or_other d with rfl | rfl
  · exact wire.closed e shut
  · cases (wire.closed _ shut).symm.trans sent.turn

/-- A segment is what the other side has said. -/
theorem hear {segment : List UInt8} (wire : Wire D view c) (arrived : c.inbox d = segment :: rest) :
    rest = [] ∧ Sent D view c d.other (some segment) ∧
      Wire D (Function.update view d (view d.other)) (c.pop d []) ∧
      Silent (Function.update view d (view d.other)) (c.pop d []) := by
  rcases wire.flight with settled | ⟨e, msg, sent⟩
  · cases (settled d).2.symm.trans arrived
  rcases d.eq_or_other e with rfl | rfl
  · cases sent.heard.symm.trans arrived
  have flies := sent.flies.symm.trans arrived
  cases msg with
  | none => cases flies
  | some bytes =>
    cases flies
    rw [Side.other_other]
    refine ⟨rfl, sent, wire.caughtUp sent _ (fun d => ?_) rfl⟩
    rcases d.eq_or_other e with rfl | rfl
    · exact (Function.update_of_ne d.ne_other _ _).trans sent.heard
    · exact Function.update_self _ _ _

/-- Where no more comes from a side that has closed, it has hung up. -/
theorem hearEnd (wire : Wire D view c) (empty : c.inbox d = []) (gone : c.closed d.other = true)
    (listens : D.speaker (view d) = some d.other ∨ D.hung (view d) = some d.other) :
    Sent D view c d.other none ∧ Wire D (Function.update view d (view d.other)) c ∧
        Silent (Function.update view d (view d.other)) c ∨
      D.hung (view d) = some d.other := by
  have finished := wire.closed _ gone
  rcases wire.flight with settled | ⟨e, msg, sent⟩
  · rw [(settled d).1] at finished
    refine .inr (listens.resolve_left ?_)
    rw [finished]
    rintro ⟨⟩
  rcases d.eq_or_other e with rfl | rfl
  · cases finished.symm.trans sent.turn
  have flies := sent.flies.symm.trans empty
  cases msg with
  | some bytes => cases flies
  | none =>
    rw [Side.other_other]
    refine .inl ⟨sent, wire.caughtUp sent _ (fun d => ?_) rfl⟩
    rcases d.eq_or_other e with rfl | rfl
    · exact sent.heard
    · exact empty

end Wire
end

/-- `view` is what each side of each connection knows and `holder` the thread that has the side. -/
structure Links (Tid T : Type) where
  view : Socket → T
  holder : Socket → Option Tid

namespace Links
variable {Tid T : Type}

def learn (L : Links Tid T) (s : Socket) (τ : T) : Links Tid T :=
  { L with view := Function.update L.view s τ }

def take (L : Links Tid T) (s : Socket) (t : Tid) : Links Tid T :=
  { L with holder := Function.update L.holder s (some t) }

/-- `t` has connected. -/
def begin (L : Links Tid T) (n : Nat) (t : Tid) (τ : T) : Links Tid T where
  view s := if s.conn = n then τ else L.view s
  holder s := if s.conn = n then (if s.side = .client then some t else none) else L.holder s

def sides (L : Links Tid T) (n : Nat) (d : Side) : T := L.view ⟨n, d⟩

theorem sides_learn (L : Links Tid T) (s : Socket) (τ : T) :
    (L.learn s τ).sides s.conn = Function.update (L.sides s.conn) s.side τ := by
  funext d
  by_cases same : d = s.side
  · subst same
    simp [sides, learn]
  · have other : (⟨s.conn, d⟩ : Socket) ≠ s := by
      intro same'
      exact same (congrArg Socket.side same')
    simp [sides, learn, same, other]

theorem sides_learn_other (L : Links Tid T) {s : Socket} (τ : T) (other : n ≠ s.conn) :
    (L.learn s τ).sides n = L.sides n := by
  funext d
  refine Function.update_of_ne ?_ _ _
  intro same
  exact other (congrArg Socket.conn same)

end Links

theorem knows_cases {Tid T : Type} [DecidableEq Tid] {ends : Tid → Socket → Option T}
    {t u : Tid} {s s₁ : Socket} {τ τ₁ : T}
    (knows : Function.update ends t (Function.update (ends t) s (some τ₁)) u s₁ = some τ) :
    u = t ∧ s₁ = s ∧ τ₁ = τ ∨ ¬ (u = t ∧ s₁ = s) ∧ ends u s₁ = some τ := by
  by_cases self : u = t
  · subst self
    rw [Function.update_self] at knows
    by_cases same : s₁ = s
    · subst same
      rw [Function.update_self] at knows
      exact .inl ⟨rfl, rfl, Option.some.inj knows⟩
    · rw [Function.update_of_ne same] at knows
      exact .inr ⟨fun both => same both.2, knows⟩
  · rw [Function.update_of_ne self] at knows
    exact .inr ⟨fun both => self both.1, knows⟩

section
variable {P : Platform} {Tid Mem T : Type}

/-- The connections keep in step with what the threads know at their sides; `start` is the
conversation that begins with a connection to an address. -/
structure Linked (D : Dialogue T) (start : P.Address → T) (L : Links Tid T)
    (ends : Tid → Socket → Option T) (G : State P Tid Mem) : Prop where
  ends : ends t s = some τ → s.conn < G.next ∧ L.holder s = some t ∧ L.view s = τ
  wires : ∀ n < G.next, Wire D (L.sides n) (G.conns n)
  waiting : n ∈ G.backlog a → n < G.next ∧ L.holder ⟨n, .server⟩ = none ∧
    L.view ⟨n, .server⟩ = start a
  once : ∀ a, (G.backlog a).Nodup
  apart : n ∈ G.backlog a → n ∈ G.backlog b → a = b

namespace Linked
variable {D : Dialogue T} {start : P.Address → T} {L : Links Tid T}
  {ends : Tid → Socket → Option T} {G : State P Tid Mem}

theorem congr {G₁ : State P Tid Mem} (linked : Linked D start L ends G) (next : G₁.next = G.next)
    (conns : G₁.conns = G.conns) (backlog : G₁.backlog = G.backlog) : Linked D start L ends G₁ := by
  constructor
  · rw [next]
    exact linked.ends
  · rw [next, conns]
    exact linked.wires
  · rw [next, backlog]
    exact linked.waiting
  · rw [backlog]
    exact linked.once
  · rw [backlog]
    exact linked.apart

theorem shut (linked : Linked D start L ends G) (own : ends t s = some τ) (done : D.speaker τ = none) :
    Linked D start L ends (G.setConn s.conn ((G.conns s.conn).shut s.side)) := by
  obtain ⟨old, _, rfl⟩ := linked.ends own
  refine ⟨linked.ends, fun n old' => ?_, linked.waiting, linked.once, linked.apart⟩
  change Wire D _ (Function.update G.conns s.conn _ n)
  by_cases same : n = s.conn
  · subst same
    rw [Function.update_self]
    exact (linked.wires s.conn old).shut done
  · rw [Function.update_of_ne same]
    exact linked.wires n old'

variable [DecidableEq Tid]

/-- A thread goes on from `τ` to `τ₁` at its side of a connection. -/
theorem learn (linked : Linked D start L ends G) (own : ends t s = some τ)
    (wire : Wire D (Function.update (L.sides s.conn) s.side τ₁) conn) :
    Linked D start (L.learn s τ₁)
      (Function.update ends t (Function.update (ends t) s (some τ₁))) (G.setConn s.conn conn) := by
  obtain ⟨old, held, _⟩ := linked.ends own
  constructor
  · intro u s' τ' own'
    rcases knows_cases own' with ⟨rfl, rfl, rfl⟩ | ⟨differ, before⟩
    · exact ⟨old, held, Function.update_self _ _ _⟩
    · obtain ⟨old', held', knows⟩ := linked.ends before
      refine ⟨old', held', (Function.update_of_ne ?_ _ _).trans knows⟩
      rintro rfl
      exact differ ⟨Option.some.inj (held'.symm.trans held), rfl⟩
  · intro n old'
    by_cases same : n = s.conn
    · subst same
      rw [Links.sides_learn]
      change Wire D _ (Function.update G.conns s.conn conn s.conn)
      rw [Function.update_self]
      exact wire
    · rw [Links.sides_learn_other L τ₁ same]
      change Wire D _ (Function.update G.conns s.conn conn n)
      rw [Function.update_of_ne same]
      exact linked.wires n old'
  · intro n a queued
    obtain ⟨old', free, knows⟩ := linked.waiting queued
    refine ⟨old', free, (Function.update_of_ne ?_ _ _).trans knows⟩
    rintro rfl
    cases free.symm.trans held
  · exact linked.once
  · exact linked.apart

/-- What a thread says is on its way afterwards. -/
theorem say (linked : Linked D start L ends G) (own : ends t s = some τ)
    (turn : D.speaker τ = some s.side) (said : D.speaks τ (some bytes) τ₁) :
    let conn := (G.conns s.conn).push s.side.other bytes
    Linked D start (L.learn s τ₁) (Function.update ends t (Function.update (ends t) s (some τ₁)))
        (G.setConn s.conn conn) ∧
      Sent D ((L.learn s τ₁).sides s.conn) conn s.side (some bytes) := by
  intro conn
  obtain ⟨old, _, rfl⟩ := linked.ends own
  obtain ⟨wire, sent⟩ := (linked.wires s.conn old).say turn said
  refine ⟨linked.learn own wire, ?_⟩
  rw [Links.sides_learn]
  exact sent

theorem hang (linked : Linked D start L ends G) (own : ends t s = some τ)
    (turn : D.speaker τ = some s.side) (said : D.speaks τ none τ₁) :
    let conn := (G.conns s.conn).shut s.side
    Linked D start (L.learn s τ₁) (Function.update ends t (Function.update (ends t) s (some τ₁)))
        (G.setConn s.conn conn) ∧
      Sent D ((L.learn s τ₁).sides s.conn) conn s.side none := by
  intro conn
  obtain ⟨old, _, rfl⟩ := linked.ends own
  obtain ⟨wire, sent⟩ := (linked.wires s.conn old).hang turn said
  refine ⟨linked.learn own wire, ?_⟩
  rw [Links.sides_learn]
  exact sent

/-- A thread that receives a segment goes on to what the other side has said with it. -/
theorem hear {segment : List UInt8} (linked : Linked D start L ends G) (own : ends t s = some τ)
    (arrived : (G.conns s.conn).inbox s.side = segment :: rest) :
    let conn := (G.conns s.conn).pop s.side []
    let τ₁ := L.sides s.conn s.side.other
    rest = [] ∧ D.speaks τ (some segment) τ₁ ∧
      Sent D (L.sides s.conn) (G.conns s.conn) s.side.other (some segment) ∧
      Linked D start (L.learn s τ₁) (Function.update ends t (Function.update (ends t) s (some τ₁)))
        (G.setConn s.conn conn) ∧
      Silent ((L.learn s τ₁).sides s.conn) conn := by
  intro conn τ₁
  obtain ⟨old, _, rfl⟩ := linked.ends own
  obtain ⟨last, sent, wire, settled⟩ := (linked.wires s.conn old).hear arrived
  refine ⟨last, sent.heardBy, sent, linked.learn own wire, ?_⟩
  rw [Links.sides_learn]
  exact settled

theorem hearEnd (linked : Linked D start L ends G) (own : ends t s = some τ)
    (empty : (G.conns s.conn).inbox s.side = [])
    (gone : (G.conns s.conn).closed s.side.other = true)
    (listens : D.speaker τ = some s.side.other ∨ D.hung τ = some s.side.other) :
    let τ₁ := L.sides s.conn s.side.other
    D.speaks τ none τ₁ ∧
      Sent D (L.sides s.conn) (G.conns s.conn) s.side.other none ∧
      Linked D start (L.learn s τ₁) (Function.update ends t (Function.update (ends t) s (some τ₁))) G ∧
      Silent ((L.learn s τ₁).sides s.conn) (G.conns s.conn) ∨
    D.hung τ = some s.side.other := by
  intro τ₁
  obtain ⟨old, _, rfl⟩ := linked.ends own
  refine ((linked.wires s.conn old).hearEnd empty gone listens).imp_left ?_
  rintro ⟨sent, wire, settled⟩
  have learned := linked.learn own wire
  rw [show G.setConn s.conn (G.conns s.conn) = G by simp [State.setConn]] at learned
  refine ⟨sent.heardBy, sent, learned, ?_⟩
  rw [Links.sides_learn]
  exact settled

variable [DecidableEq P.Address]

omit [DecidableEq Tid] in
theorem queue_cases {G : State P Tid Mem}
    (queued : n ∈ Function.update G.backlog a (G.backlog a ++ [m]) b) : n = m ∧ b = a ∨ n ∈ G.backlog b := by
  by_cases same : b = a
  · subst same
    rw [Function.update_self] at queued
    rcases List.mem_append.mp queued with waits | last
    · exact .inr waits
    · exact .inl ⟨List.mem_singleton.mp last, rfl⟩
  · rw [Function.update_of_ne same] at queued
    exact .inr queued

/-- A thread that connects begins a conversation at an address. -/
theorem connect (linked : Linked D start L ends G) (t : Tid) (a : P.Address) :
    let s : Socket := ⟨G.next, .client⟩
    ends t s = none ∧
    Linked D start (L.begin G.next t (start a))
      (Function.update ends t (Function.update (ends t) s (some (start a))))
      { (G.setConn G.next Conn.opened).setBacklog a (G.backlog a ++ [G.next]) with
        next := G.next + 1 } ∧
    Silent ((L.begin G.next t (start a)).sides G.next) Conn.opened := by
  intro s
  have fresh : ∀ u d, ends u ⟨G.next, d⟩ = none := by
    intro u d
    by_contra taken
    obtain ⟨τ, own⟩ := Option.ne_none_iff_exists'.mp taken
    exact Nat.lt_irrefl _ (linked.ends own).1
  have kept : ∀ n < G.next, (L.begin G.next t (start a)).sides n = L.sides n := by
    intro n old
    funext d
    exact if_neg (Nat.ne_of_lt old)
  refine ⟨fresh t _, ⟨?_, ?_, ?_, ?_, ?_⟩, fun d => ⟨?_, rfl⟩⟩
  · intro u s' τ own
    rcases knows_cases own with ⟨rfl, rfl, rfl⟩ | ⟨_, before⟩
    · exact ⟨Nat.lt_succ_self _, by simp [Links.begin, s], by simp [Links.begin, s]⟩
    · obtain ⟨old, held, knows⟩ := linked.ends before
      have other := Nat.ne_of_lt old
      exact ⟨Nat.lt_succ_of_lt old, (if_neg other).trans held, (if_neg other).trans knows⟩
  · intro n old
    change Wire D _ (Function.update G.conns G.next Conn.opened n)
    rcases Nat.lt_succ_iff_lt_or_eq.mp old with old | rfl
    · rw [kept n old, Function.update_of_ne (Nat.ne_of_lt old)]
      exact linked.wires n old
    · have same : (L.begin G.next t (start a)).sides G.next = fun _ => start a := by
        funext d
        exact if_pos rfl
      rw [same, Function.update_self]
      exact wire_opened _
  · intro n b queued
    rcases queue_cases queued with ⟨rfl, rfl⟩ | waits
    · exact ⟨Nat.lt_succ_self _, by simp [Links.begin], by simp [Links.begin]⟩
    · obtain ⟨old, free, knows⟩ := linked.waiting waits
      have other := Nat.ne_of_lt old
      exact ⟨Nat.lt_succ_of_lt old, (if_neg other).trans free, (if_neg other).trans knows⟩
  · intro b
    change (Function.update G.backlog a _ b).Nodup
    by_cases same : b = a
    · subst same
      rw [Function.update_self, List.nodup_append]
      refine ⟨linked.once b, List.nodup_singleton _, ?_⟩
      intro n waits m last
      rw [List.mem_singleton.mp last]
      exact Nat.ne_of_lt (linked.waiting waits).1
    · rw [Function.update_of_ne same]
      exact linked.once b
  · intro n b c queued queued'
    rcases queue_cases queued with ⟨rfl, rfl⟩ | waits
    · rcases queue_cases queued' with ⟨_, rfl⟩ | waits'
      · rfl
      · exact absurd (linked.waiting waits').1 (Nat.lt_irrefl _)
    · rcases queue_cases queued' with ⟨rfl, _⟩ | waits'
      · exact absurd (linked.waiting waits).1 (Nat.lt_irrefl _)
      · exact linked.apart waits waits'
  · simp [Links.sides, Links.begin]

/-- A thread that accepts takes up the conversation at its other side. -/
theorem accept (linked : Linked D start L ends G) (t : Tid) (waits : G.backlog a = n :: rest) :
    let s : Socket := ⟨n, .server⟩
    ends t s = none ∧
    Linked D start (L.take s t) (Function.update ends t (Function.update (ends t) s (some (start a))))
      (G.setBacklog a rest) := by
  intro s
  have first : n ∈ G.backlog a := by simp [waits]
  obtain ⟨old, free, knows⟩ := linked.waiting first
  have distinct := linked.once a
  rw [waits, List.nodup_cons] at distinct
  have later : ∀ {m b}, m ∈ (G.setBacklog a rest).backlog b → m ∈ G.backlog b ∧ m ≠ n := by
    intro m b queued
    change m ∈ Function.update G.backlog a rest b at queued
    by_cases same : b = a
    · subst same
      rw [Function.update_self] at queued
      refine ⟨by simp [waits, queued], ?_⟩
      rintro rfl
      exact distinct.1 queued
    · rw [Function.update_of_ne same] at queued
      refine ⟨queued, ?_⟩
      rintro rfl
      exact same (linked.apart queued first)
  refine ⟨?_, ⟨?_, linked.wires, ?_, ?_, ?_⟩⟩
  · by_contra taken
    obtain ⟨τ, own⟩ := Option.ne_none_iff_exists'.mp taken
    cases free.symm.trans (linked.ends own).2.1
  · intro u s' τ own
    rcases knows_cases own with ⟨rfl, rfl, rfl⟩ | ⟨_, before⟩
    · exact ⟨old, Function.update_self _ _ _, knows⟩
    · obtain ⟨old', held, knows'⟩ := linked.ends before
      refine ⟨old', (Function.update_of_ne ?_ _ _).trans held, knows'⟩
      rintro rfl
      cases free.symm.trans held
  · intro m b queued
    obtain ⟨waits', other⟩ := later queued
    obtain ⟨old', free', knows'⟩ := linked.waiting waits'
    refine ⟨old', (Function.update_of_ne ?_ _ _).trans free', knows'⟩
    intro same
    exact other (congrArg Socket.conn same)
  · intro b
    change (Function.update G.backlog a rest b).Nodup
    by_cases same : b = a
    · subst same
      rw [Function.update_self]
      exact distinct.2
    · rw [Function.update_of_ne same]
      exact linked.once b
  · intro m b c queued queued'
    exact linked.apart (later queued).1 (later queued').1

end Linked
end
end Process
