import DnsServer.Coms.Text
import DnsServer.Process.Machine
import DnsServer.Router.Rotation

/-! The memory that the threads share and the requests they make of it. -/
namespace DnsServer
open Process Memory

inductive Lock where
  | mutex
  | tcpMutex
  deriving DecidableEq

/-- A table is named by the TCP port of the server that owns it. -/
inductive Op where
  | versionNum (coms : UInt16)
  | setVersionNum (coms : UInt16) (id : UInt8)
  | ipHash (coms : UInt16)
  | clear (coms : UInt16)
  | insert (coms : UInt16) (domain ip : Bytes)
  | erase (coms : UInt16) (domain : Bytes)
  | writeHostsFile (coms : UInt16)
  | router
  | setCurrServer (currServer : UInt8)
  | addServer (dns : Server)
  | shiftOut (dnsId : UInt8)
  | shrinkServers
  /-- The server behind a pointer. -/
  | object (pointer : Bytes)
  | sendPacket (portNum : UInt16) (message : Bytes)
  | recvfrom
  /-- The bytes of an uninitialised local. -/
  | garbage (n : Nat)
  /-- Undefined behaviour: there is no answer. -/
  | fault

@[reducible] def Op.Reply : Op → Type
  | .versionNum _ => UInt8
  | .setVersionNum _ _ => Unit
  | .ipHash _ => Hash
  | .clear _ => Unit
  | .insert _ _ _ => Unit
  | .erase _ _ => Unit
  | .writeHostsFile _ => Unit
  | .router => Router
  | .setCurrServer _ => Unit
  | .addServer _ => Unit
  | .shiftOut _ => Bool
  | .shrinkServers => Unit
  | .object _ => Server
  | .sendPacket _ _ => UInt8
  | .recvfrom => Option Bytes
  | .garbage n => { bytes : Bytes // bytes.length = n }
  | .fault => Empty

@[reducible] def platform : Platform where
  Address := UInt16
  Lock := Lock
  Op := Op
  Reply := Op.Reply

instance : DecidableEq platform.Lock := inferInstanceAs (DecidableEq Lock)

abbrev Proc (α : Type) := platform.Thread α

/-! The requests, under the names of the system calls. -/

def connectToTcp (portNum : UInt16) : Proc Socket :=
  @Program.request platform.interface (.connect portNum)

def createTcpConnections (portNum : UInt16) : Proc Socket :=
  @Program.request platform.interface (.accept portNum)

def send (socket : Socket) (bytes : Bytes) : Proc Bool :=
  @Program.request platform.interface (.send socket bytes)

def recv (socket : Socket) (len : Nat) : Proc (Option Bytes) :=
  @Program.request platform.interface (.recv socket len)

def close (socket : Socket) : Proc Unit :=
  @Program.request platform.interface (.close socket)

def lock (l : Lock) : Proc Unit :=
  @Program.request platform.interface (.lock l)

def unlock (l : Lock) : Proc Unit :=
  @Program.request platform.interface (.unlock l)

def act (op : Op) : Proc op.Reply :=
  @Program.request platform.interface (.act op)

def fault : Proc α := @Program.call platform.interface _ (.act Op.fault) fun impossible => nomatch impossible

theorem fault_bind (f : α → Proc β) : (fault : Proc α).bind f = fault := by
  unfold fault
  rw [Program.call_bind]
  congr 1
  funext impossible
  exact impossible.elim

def garbageByte : Proc UInt8 := do
  let bytes ← act (.garbage 1)
  return bytes.val.headD 0

/-- A one-byte receive into an uninitialised local: `none` on failure. -/
def recvByte (socket : Socket) : Proc (Option UInt8) := do
  match ← recv socket 1 with
  | none => return none
  | some (b :: _) => return some b
  | some [] => return some (← garbageByte)

/-- The same, where the result of the receive is not looked at. -/
def recvUnchecked (socket : Socket) : Proc UInt8 := do
  match ← recv socket 1 with
  | some (b :: _) => return b
  | _ => garbageByte

/-! What the operations do to the memory. -/

/-- `object` gives the server record at an address. -/
structure Mem where
  coms : UInt16 → Coms
  router : Router
  object : Bytes → Server

/-- A router and servers that have read no hosts file. -/
def startMem (mode : RouterMode) : Mem :=
  ⟨fun _ => emptyComs 0, createRouter mode, fun _ => createDnsServer [] 0 0 0⟩

def Mem.setComs (m : Mem) (coms : UInt16) (c : Coms) : Mem :=
  { m with coms := Function.update m.coms coms c }

/-- What operations that leave the memory alone are answered, if at all. -/
abbrev World := (op : Op) → Option op.Reply

def zeros (n : Nat) : { bytes : Bytes // bytes.length = n } := ⟨List.replicate n 0, List.length_replicate⟩

/-- No server answers a ping. -/
def silentWorld : World
  | .sendPacket _ _ => some 0
  | .recvfrom => some none
  | .garbage k => some (zeros k)
  | _ => none

def Mem.perform (world : World) (m : Mem) : (op : Op) → Option (op.Reply × Mem)
  | .versionNum coms => some ((m.coms coms).versionNum, m)
  | .setVersionNum coms id => some ((), m.setComs coms { m.coms coms with versionNum := id })
  | .ipHash coms => some ((m.coms coms).ipHash, m)
  | .clear coms => some ((), m.setComs coms { m.coms coms with ipHash := ∅ })
  | .insert coms domain ip =>
    some ((), m.setComs coms { m.coms coms with ipHash := (m.coms coms).ipHash.insert domain ip })
  | .erase coms domain =>
    some ((), m.setComs coms { m.coms coms with ipHash := (m.coms coms).ipHash.erase domain })
  | .writeHostsFile coms => some ((), m.setComs coms (m.coms coms).writeHostsFile)
  | .router => some (m.router, m)
  | .setCurrServer currServer => some ((), { m with router := { m.router with currServer } })
  | .addServer dns => (m.router.addServer dns).map fun router => ((), { m with router })
  | .shiftOut dnsId =>
    (m.router.shiftOut dnsId).map fun (deleted, router) => (deleted, { m with router })
  | .shrinkServers => some ((), { m with router := m.router.shrinkServers })
  | .object pointer => some (m.object pointer, m)
  | .sendPacket portNum message => (world (.sendPacket portNum message)).map (·, m)
  | .recvfrom => (world .recvfrom).map (·, m)
  | .garbage n => (world (.garbage n)).map (·, m)
  | .fault => none

end DnsServer
