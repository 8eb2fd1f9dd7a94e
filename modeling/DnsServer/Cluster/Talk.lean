import DnsServer.Cluster.Threads
import DnsServer.Process.Dialogue
import DnsServer.Process.Protocol

/-! What is said on the cluster's connections, the servers' contents that go along with it, and
the protocol that the threads follow with both. -/
namespace DnsServer
open Process

/-- The contents of servers that are in someone's hands. -/
abbrev Cells := UInt16 → Option Coms

namespace Cells

def none : Cells := fun _ => .none
def all (coms : UInt16 → Coms) : Cells := fun p => some (coms p)
def only (p : UInt16) (c : Coms) : Cells := Function.update none p (some c)
def minus (a b : Cells) : Cells := fun p => if (b p).isSome then .none else a p
def plus (a b : Cells) : Cells := fun p => (b p).or (a p)
def Within (b a : Cells) : Prop := ∀ p c, b p = some c → a p = some c

end Cells

/-- What a session starts from and ends with. -/
structure Listed (ports : List UInt16) (coms : UInt16 → Coms) : Prop extends InStep ports coms where
  apart : ∀ p ∈ ports, p ≠ routerTcpPortNum

/-- How far a conversation has got: with the router up to `abandoned`, and then with the server
at `p` whose contents are `c`. A position in a list counts what has been sent of it. -/
inductive Talk where
  | asked
  | listing (ports : List UInt16) (coms : UInt16 → Coms) (sent : Nat)
  | acked (ports : List UInt16) (coms : UInt16 → Coms) (sent : Nat)
  | replied (coms : UInt16 → Coms)
  | abandoned
  | called (p : UInt16)
  | updating (p : UInt16) (c : Coms)
  | version (p : UInt16) (c : Coms)
  | texted (p : UInt16) (c : Coms) (u : Update)
  | applied (p : UInt16) (c : Coms)
  | declined
  | copying (p : UInt16) (c : Coms)
  | item (p : UInt16) (c : Coms) (sent : Nat)
  | wanted (p : UInt16) (c : Coms) (sent : Nat)
  | copied (p : UInt16) (c : Coms)

namespace Talk

def speaker : Talk → Option Side
  | asked | acked _ _ _ | updating _ _ | texted _ _ _ | copying _ _ | wanted _ _ _ => some .server
  | listing _ _ _ | called _ | version _ _ | item _ _ _ => some .client
  | replied _ | abandoned | applied _ _ | declined | copied _ _ => none

/-- The side that has closed in the place of an answer. -/
def hung : Talk → Option Side
  | abandoned | declined => some .client
  | applied _ _ => some .server
  | _ => none

/-- What passes into other hands with the words that lead here. -/
def load : Talk → Cells
  | listing _ coms 0 | replied coms => .all coms
  | updating p c | version p c | texted p c _ | applied p c | copying p c | copied p c => .only p c
  | _ => .none

/-- The rotation announced in a session that goes on. -/
def session : Talk → Option (List UInt16)
  | listing ports _ _ | acked ports _ _ => some ports
  | _ => none

end Talk

/-- The rotation once the router has the reply of a session. -/
def joined (object : Bytes → Server) (ports : List UInt16) (pointer : Bytes) : List UInt16 :=
  if pointer = List.replicate pointerSize 0 then ports else ports ++ [(object pointer).tcpPortNum]

/-- What may be said; `none` stands for closing. -/
inductive Speaks (object : Bytes → Server) : Talk → Option Bytes → Talk → Prop where
  | count : ports.length ≤ 255 → Listed ports coms →
      Speaks object .asked (some [UInt8.ofNat ports.length]) (.listing ports coms 0)
  | ack : sent < ports.length →
      Speaks object (.listing ports coms sent) (some [1]) (.acked ports coms sent)
  | port : ports[sent]? = some p → Speaks object (.acked ports coms sent)
      (some [loByte p, hiByte p]) (.listing ports coms (sent + 1))
  | reply : pointer.length = pointerSize → Listed (joined object ports pointer) coms' →
      Speaks object (.listing ports coms ports.length) (some pointer) (.replied coms')
  | giveUp : Speaks object (.listing ports coms ports.length) none .abandoned
  | update : Speaks object (.called p) (some [2]) (.updating p c)
  | version : Speaks object (.updating p c) (some [c.versionNum]) (.version p c)
  | text : u.Clean → u.Fits → Speaks object (.version p c) (some u.text) (.texted p c u)
  | decline : Speaks object (.version p c) none .declined
  | apply : c'.table = u.apply c.table → c'.versionNum = u.id →
      Speaks object (.texted p c u) none (.applied p c')
  | copy : Speaks object (.called p) (some [1]) (.copying p c)
  | total : Sendable c.ipHash.entries → Speaks object (.copying p c)
      (some [UInt8.ofNat c.ipHash.entries.length]) (.item p c 0)
  | want : sent ≤ c.ipHash.entries.length →
      Speaks object (.item p c sent) (some [1]) (.wanted p c sent)
  | entry : c.ipHash.entries[sent]? = some entry → Speaks object (.wanted p c sent)
      (some (entryText entry.1 entry.2)) (.item p c (sent + 1))
  | last : Speaks object (.wanted p c c.ipHash.entries.length) (some [c.versionNum]) (.copied p c)

def dialogue (object : Bytes → Server) : Dialogue Talk where
  speaker := Talk.speaker
  speaks := Speaks object
  hung := Talk.hung
  turns := by
    intro τ msg τ₁ said
    cases said <;> exact ⟨_, rfl, by simp [Talk.speaker]⟩
  ends := by
    intro τ τ₁ said
    cases said <;> rfl

/-- The conversation that a connection begins. -/
def greeting (portNum : UInt16) : Talk :=
  if portNum = routerTcpPortNum then .asked else .called portNum

theorem speaks_session (said : Speaks object τ msg τ₁) (session : τ₁.session = some ports) :
    τ = .asked ∨ τ.session = some ports := by
  cases said with
  | count => exact .inl rfl
  | ack => exact .inr session
  | port => exact .inr session
  | _ => cases session

/-- What a thread may use and knows: server contents, the router's record and the conversations
at its sockets. -/
structure Position where
  cells : Cells
  router : Option Router
  ends : Socket → Option Talk

namespace Position

def meet (s : Position) (socket : Socket) (τ : Talk) : Position :=
  { s with ends := Function.update s.ends socket (some τ) }

def speak (s : Position) (socket : Socket) (τ : Talk) : Position :=
  { s with
    cells := s.cells.minus τ.load
    ends := Function.update s.ends socket (some τ) }

def hear (s : Position) (socket : Socket) (τ : Talk) : Position :=
  { s with
    cells := s.cells.plus τ.load
    ends := Function.update s.ends socket (some τ) }

/-- The memory after an operation, as far as the thread may use it. -/
def refresh (s : Position) (m : Mem) : Position :=
  { s with
    cells := fun p => (s.cells p).map fun _ => m.coms p
    router := s.router.map fun _ => m.router }

/-- What a thread can tell of the memory. -/
structure Knows (s : Position) (object : Bytes → Server) (m : Mem) : Prop where
  cells : s.cells p = some c → m.coms p = c
  router : s.router = some r → m.router = r
  session : s.ends socket = some τ → τ.session = some ports → m.router.ports = ports
  neat : ∀ p, Neat (m.coms p).ipHash.entries
  covered : m.router.Covered
  object : m.object = object

/-- No session goes on at the thread's sockets. -/
def Idle (s : Position) : Prop := ∀ socket τ, s.ends socket = some τ → τ.session = none

/-- The operations that a thread may make. -/
def Allows (s : Position) (t : ClusterThread) : Op → Prop
  | .versionNum p | .ipHash p | .setVersionNum p _ | .clear p | .erase p _ | .writeHostsFile p =>
    (s.cells p).isSome
  | .insert p domain ip => (s.cells p).isSome ∧ Neat [⟨domain, ip⟩]
  | .router => s.router.isSome
  | .addServer _ => t = .router ∧ s.router.isSome ∧ s.Idle
  | .shiftOut _ | .shrinkServers => t ≠ .router ∧ s.router.isSome
  | .object _ | .garbage _ | .fault => True
  | _ => False

end Position

section
variable (calls : Nat → ClusterCall) (object : Bytes → Server) (t : ClusterThread)

/-- A plan is what a message stands for. -/
def Permits (s : Position) : platform.Call → Talk → Prop
  | .connect _, _ | .accept _, _ | .lock _, _ => True
  | .send socket bytes, τ₁ => ∃ τ, s.ends socket = some τ ∧ τ.speaker = some socket.side ∧
      Speaks object τ (some bytes) τ₁ ∧ τ₁.load.Within s.cells ∧
      (τ = .asked → t = .router ∧ ∃ r, s.router = some r ∧ τ₁.session = some r.ports)
  | .recv socket len, _ => ∃ τ, s.ends socket = some τ ∧
      (τ.speaker = some socket.side.other ∨ τ.hung = some socket.side.other) ∧
      ∀ bytes τ₁, Speaks object τ (some bytes) τ₁ → bytes.length ≤ len
  | .close socket, τ₁ => ∃ τ, s.ends socket = some τ ∧ (τ.speaker = none ∨
      τ.speaker = some socket.side ∧ Speaks object τ none τ₁ ∧ τ₁.load.Within s.cells)
  | .unlock l, _ => l = Lock.tcpMutex → ∃ r, s.router = some r ∧
      (t = .router → s.Idle ∧ ∃ coms, s.cells = .all coms ∧ Listed r.ports coms)
  | .act op, _ => s.Allows t op

/-- With the router's mutex come its record and, in a session, all the servers' contents. -/
def After (s : Position) (τ₁ : Talk) : (call : platform.Call) → call.Reply → Position → Prop
  | .connect portNum, socket, s₁ => s.ends socket = none ∧ socket.side = .client ∧
      s₁ = s.meet socket (greeting portNum)
  | .accept portNum, socket, s₁ => s.ends socket = none ∧ socket.side = .server ∧
      s₁ = s.meet socket (greeting portNum)
  | .send socket _, sent, s₁ => sent = true ∧ s₁ = s.speak socket τ₁
  | .recv socket _, received, s₁ => ∃ τ, s.ends socket = some τ ∧
      ((∃ msg τ₂, Speaks object τ msg τ₂ ∧ received = some (msg.getD []) ∧ s₁ = s.hear socket τ₂) ∨
        τ.hung = some socket.side.other ∧ received = some ([] : Bytes) ∧ s₁ = s)
  | .close socket, _, s₁ => ∃ τ, s.ends socket = some τ ∧
      s₁ = if τ.speaker = none then s else s.speak socket τ₁
  | .lock l, _, s₁ => if l = Lock.tcpMutex then
      ∃ r coms, Listed r.ports coms ∧
        s₁ = { s with router := some r, cells := if t = .router then .all coms else s.cells }
    else s₁ = s
  | .unlock l, _, s₁ =>
    s₁ = if l = Lock.tcpMutex then { s with router := none, cells := .none } else s
  | .act op, r, s₁ => ∃ m m₁, s.Knows object m ∧ promise calls m t op ∧
      clusterAction t m op r m₁ ∧ s₁ = s.refresh m₁

def conduct : Protocol platform.interface Position where
  Plan := Talk
  permits := Permits object t
  after := After calls object t
  mayTurn _ := True
  turn s := s

end

end DnsServer
