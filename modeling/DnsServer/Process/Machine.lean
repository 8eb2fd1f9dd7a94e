import DnsServer.Process.Program
import Mathlib.Logic.Function.Basic
import Mathlib.Logic.Relation
import Mathlib.Data.Set.Basic

/-! Threads that run programs over one memory, exchange bytes over stream
connections and exclude each other with mutexes. Every request of every thread is a
step of its own, and the schedule is arbitrary. No send or receive fails here. -/
namespace Process

/-- The client side of a connection is the one that connected. -/
inductive Side where
  | client
  | server
  deriving DecidableEq

namespace Side

def other : Side → Side
  | .client => .server
  | .server => .client

@[simp] theorem other_other (d : Side) : d.other.other = d := by cases d <;> rfl
@[simp] theorem other_ne (d : Side) : d.other ≠ d := by cases d <;> decide
@[simp] theorem ne_other (d : Side) : d ≠ d.other := by cases d <;> decide

theorem eq_or_other (d e : Side) : d = e ∨ d = e.other := by cases d <;> cases e <;> simp [other]

end Side

structure Socket where
  conn : Nat
  side : Side
  deriving DecidableEq

/-- What a machine offers besides connections: addresses to listen on, mutexes
and the operations on its memory. -/
structure Platform where
  Address : Type
  Lock : Type
  Op : Type
  Reply : Op → Type

inductive Platform.Call (P : Platform) where
  | connect (address : P.Address)
  | accept (address : P.Address)
  | send (socket : Socket) (bytes : List UInt8)
  | recv (socket : Socket) (len : Nat)
  | close (socket : Socket)
  | lock (mutex : P.Lock)
  | unlock (mutex : P.Lock)
  | act (op : P.Op)

/-- A send answers whether it succeeded; a receive answers `none` on failure and
no bytes when the other side has closed. -/
@[reducible] def Platform.Call.Reply {P : Platform} : P.Call → Type
  | .connect _ => Socket
  | .accept _ => Socket
  | .send _ _ => Bool
  | .recv _ _ => Option (List UInt8)
  | .close _ => Unit
  | .lock _ => Unit
  | .unlock _ => Unit
  | .act op => P.Reply op

@[reducible] def Platform.interface (P : Platform) : Interface := ⟨P.Call, Platform.Call.Reply⟩

abbrev Platform.Thread (P : Platform) (α : Type) := Program P.interface α

/-- Per side, the segments it has yet to receive and whether it has closed. A
segment is what one send handed over. -/
structure Conn where
  inbox : Side → List (List UInt8)
  closed : Side → Bool

namespace Conn

def opened : Conn := ⟨fun _ => [], fun _ => false⟩

def push (c : Conn) (d : Side) (bytes : List UInt8) : Conn :=
  { c with inbox := Function.update c.inbox d (c.inbox d ++ [bytes]) }

def pop (c : Conn) (d : Side) (rest : List (List UInt8)) : Conn :=
  { c with inbox := Function.update c.inbox d rest }

def shut (c : Conn) (d : Side) : Conn := { c with closed := Function.update c.closed d true }

end Conn

/-- What a receive of `len` bytes leaves of the inbox it read. -/
def leftover (len : Nat) (segment : List UInt8) (rest : List (List UInt8)) : List (List UInt8) :=
  if segment.length ≤ len then rest else segment.drop len :: rest

structure State (P : Platform) (Tid Mem : Type) where
  mem : Mem
  locks : P.Lock → Option Tid
  conns : Nat → Conn
  next : Nat
  backlog : P.Address → List Nat
  threads : Tid → P.Thread UInt8

section
variable {P : Platform} {Tid Mem : Type} [DecidableEq P.Address] [DecidableEq P.Lock]
  [DecidableEq Tid]

namespace State

def setConn (G : State P Tid Mem) (c : Nat) (conn : Conn) : State P Tid Mem :=
  { G with conns := Function.update G.conns c conn }

def setThread (G : State P Tid Mem) (t : Tid) (p : P.Thread UInt8) : State P Tid Mem :=
  { G with threads := Function.update G.threads t p }

def setLock (G : State P Tid Mem) (l : P.Lock) (holder : Option Tid) : State P Tid Mem :=
  { G with locks := Function.update G.locks l holder }

def setBacklog (G : State P Tid Mem) (a : P.Address) (waiting : List Nat) : State P Tid Mem :=
  { G with backlog := Function.update G.backlog a waiting }

end State

/-- The effect of an operation on the memory, by the thread that requests it. -/
abbrev Action (P : Platform) (Tid Mem : Type) :=
  Tid → Mem → (op : P.Op) → P.Reply op → Mem → Prop

variable (action : Action P Tid Mem)

/-- One request of thread `t`, its answer and the state it leaves. A request with
no rule that applies blocks. -/
inductive Perform (t : Tid) (G : State P Tid Mem) :
    (call : P.Call) → call.Reply → State P Tid Mem → Prop where
  | connect : Perform t G (.connect a) (Socket.mk G.next .client)
      { (G.setConn G.next Conn.opened).setBacklog a (G.backlog a ++ [G.next]) with
        next := G.next + 1 }
  | accept : G.backlog a = c :: rest →
      Perform t G (.accept a) (Socket.mk c .server) (G.setBacklog a rest)
  | send : (G.conns s.conn).closed s.side = false → Perform t G (.send s bytes) true
      (G.setConn s.conn ((G.conns s.conn).push s.side.other bytes))
  | recv {segment : List UInt8} : (G.conns s.conn).inbox s.side = segment :: rest →
      Perform t G (.recv s len) (some (segment.take len))
        (G.setConn s.conn ((G.conns s.conn).pop s.side (leftover len segment rest)))
  | ended : (G.conns s.conn).inbox s.side = [] → (G.conns s.conn).closed s.side.other = true →
      Perform t G (.recv s len) (some ([] : List UInt8)) G
  | close : Perform t G (.close s) () (G.setConn s.conn ((G.conns s.conn).shut s.side))
  | lock : G.locks l = none → Perform t G (.lock l) () (G.setLock l (some t))
  | unlock : Perform t G (.unlock l) () (G.setLock l none)
  | act : action t G.mem op r m → Perform t G (.act op) r { G with mem := m }

inductive Step (t : Tid) (G : State P Tid Mem) : State P Tid Mem → Prop where
  | call {call : P.Call} {k : call.Reply → P.Thread UInt8} {r : call.Reply} :
      G.threads t = @Program.call P.interface _ call k → Perform action t G call r G₁ →
      Step t G (G₁.setThread t (k r))
  | turn {body : β → P.Thread (β ⊕ γ)} {k : γ → P.Thread UInt8} :
      G.threads t = .loop b body k → Step t G (G.setThread t (Program.unroll b body k))

def Moves (G G₁ : State P Tid Mem) : Prop := ∃ t, Step action t G G₁

def Reaches : State P Tid Mem → State P Tid Mem → Prop := Relation.ReflTransGen (Moves action)

/-- The runs in which every step is one that `ok` allows to be taken. -/
def ReachesUnder (ok : Tid → State P Tid Mem → Prop) : State P Tid Mem → State P Tid Mem → Prop :=
  Relation.ReflTransGen fun G G₁ => ∃ t, ok t G ∧ Step action t G G₁

variable {action}

omit [DecidableEq Tid] in
theorem perform_threads (done : Perform action t G call r G₁) : G₁.threads = G.threads := by
  cases done <;> rfl

theorem step_other (moved : Step action t G G₁) (other : u ≠ t) : G₁.threads u = G.threads u := by
  cases moved with
  | call _ done => simp [State.setThread, other, perform_threads done]
  | turn _ => simp [State.setThread, other]

/-- A property kept by every step of every thread holds in every reachable state. -/
theorem Reaches.invariant {Inv : State P Tid Mem → Prop}
    (preserves : ∀ {t G G₁}, Inv G → Step action t G G₁ → Inv G₁)
    (run : Reaches action G G₁) (start : Inv G) : Inv G₁ := by
  induction run with
  | refl => exact start
  | tail _ moved ih =>
    obtain ⟨t, moved⟩ := moved
    exact preserves ih moved

theorem ReachesUnder.invariant {Inv : State P Tid Mem → Prop} {ok : Tid → State P Tid Mem → Prop}
    (preserves : ∀ {t G G₁}, Inv G → ok t G → Step action t G G₁ → Inv G₁)
    (run : ReachesUnder action ok G G₁) (start : Inv G) : Inv G₁ := by
  induction run with
  | refl => exact start
  | tail _ moved ih =>
    obtain ⟨t, allowed, moved⟩ := moved
    exact preserves ih allowed moved

/-! Blocked threads. -/

/-- `t` cannot move before it gets `l`. -/
def Wants (G : State P Tid Mem) (t : Tid) (l : P.Lock) : Prop :=
  ∃ k, G.threads t = @Program.call P.interface _ (.lock l) k

/-- Some threads each wait for a mutex that another one of them holds. -/
def Deadlock (G : State P Tid Mem) : Prop :=
  ∃ S : Set Tid, S.Nonempty ∧
    ∀ t ∈ S, ∃ l, Wants G t l ∧ ∃ u ∈ S, u ≠ t ∧ G.locks l = some u

omit [DecidableEq P.Address] [DecidableEq P.Lock] [DecidableEq Tid] in
theorem Wants.unique (first : Wants G t l) (second : Wants G t m) : l = m := by
  obtain ⟨_, first⟩ := first
  obtain ⟨_, second⟩ := second
  cases first.symm.trans second
  rfl

omit [DecidableEq P.Address] [DecidableEq P.Lock] [DecidableEq Tid] in
/-- With two mutexes a deadlock is two threads that each hold the mutex the other wants. -/
theorem Deadlock.pair {l m : P.Lock} (two : ∀ n, n = l ∨ n = m) (stuck : Deadlock G) :
    ∃ t u, t ≠ u ∧ Wants G t m ∧ G.locks l = some t ∧ Wants G u l ∧ G.locks m = some u := by
  obtain ⟨S, ⟨a, inA⟩, waits⟩ := stuck
  obtain ⟨la, _, b, inB, _, heldB⟩ := waits a inA
  obtain ⟨lb, wantB, c, inC, neC, heldC⟩ := waits b inB
  obtain ⟨lc, wantC, d, inD, neD, heldD⟩ := waits c inC
  -- `b` holds `la` and wants `lb`, so these are the two mutexes; `c` holds `lb` and wants `la`.
  have differ : la ≠ lb := by
    rintro rfl
    exact neC (Option.some.inj (heldC.symm.trans heldB))
  have back : lc = la := by
    have other : lc ≠ lb := by
      rintro rfl
      exact neD (Option.some.inj (heldD.symm.trans heldC))
    rcases two la with rfl | rfl <;> rcases two lb with rfl | rfl <;> rcases two lc with rfl | rfl <;>
      simp_all
  subst back
  rcases two lc with rfl | rfl <;> rcases two lb with rfl | rfl
  · exact absurd rfl differ
  · exact ⟨b, c, neC.symm, wantB, heldB, wantC, heldC⟩
  · exact ⟨c, b, neC, wantC, heldC, wantB, heldB⟩
  · exact absurd rfl differ

end
end Process
