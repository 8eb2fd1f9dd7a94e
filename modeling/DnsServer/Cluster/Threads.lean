import DnsServer.Coms.Programs
import DnsServer.Process.Schedule
import DnsServer.Router.Programs

/-! The router's TCP thread, those of the servers, and any number of updates, joins and
removals at once. -/
namespace DnsServer
open Process

/-- The router has bound its port, so that a server which asks for it exits. -/
abbrev ServerPort := { p : UInt16 // p ≠ routerTcpPortNum }

/-- `self` is the port of the server that issues the update. -/
inductive ClusterCall where
  | update (self : UInt16) (u : Update) (fail : Int8)
  | join (x : Server)

inductive ClusterThread where
  | router
  | server (p : ServerPort)
  | caller (n : Nat)
  | remover (n : Nat)
  deriving DecidableEq

def ClusterCall.program : ClusterCall → Proc UInt8
  | .update self u fail => updateHosts self u.remove u.domain u.ip self u.id fail
  | .join x => updateAndOnline x

def clusterThreads (calls : Nat → ClusterCall) (dnsId : Nat → UInt8) : ClusterThread → Proc UInt8
  | .router => checkIpListRequests
  | .server p => checkHostsRequests p
  | .caller n => (calls n).program
  | .remover n => removeServer (dnsId n)

abbrev ClusterState := State platform ClusterThread Mem

/-- A table that an entry was stored in or taken from may iterate in another order. -/
def Mem.Rehashed (m : Mem) : Op → Mem → Prop
  | .insert p _ _, m₁ | .erase p _, m₁ =>
    ∃ hash : Hash, hash.toFinmap = (m.coms p).table ∧ m₁ = m.setComs p { m.coms p with ipHash := hash }
  | _, m₁ => m₁ = m

def clusterAction : Action platform ClusterThread Mem := fun _ m op r m₁ =>
  ∃ world m', m.perform world op = some (r, m') ∧ m'.Rehashed op m₁

/-- The fail index names no other server than the caller's, and a joiner is in no rotation. -/
def ClusterCall.promise (ports : List UInt16) : ClusterCall → Op → Prop
  | .update self _ fail, .versionNum _ => ∀ (i : Nat), ∀ port ∈ ports[i]?, (i : Int) = fail.toInt → port = self
  | .join x, .clear _ => x.tcpPortNum ∉ ports
  | _, _ => True

/-- What holds when a thread makes an operation; a table that is sent has few entries. -/
def promise (calls : Nat → ClusterCall) (m : Mem) : ClusterThread → Op → Prop
  | .caller n, op => (calls n).promise m.router.ports op
  | .server _, .ipHash p => (m.coms p).ipHash.entries.length ≤ 255
  | _, _ => True

/-- The operation that the thread makes next. -/
def nextOp (t : ClusterThread) (G : ClusterState) : Option Op :=
  match G.threads t with
  | .call (.act op) _ => some op
  | _ => none

def Promised (calls : Nat → ClusterCall) (t : ClusterThread) (G : ClusterState) : Prop :=
  ∀ op ∈ nextOp t G, promise calls G.mem t op

/-- The servers at the ports have one table and one version. -/
structure InStep (ports : List UInt16) (coms : UInt16 → Coms) : Prop where
  table : ∀ p ∈ ports, ∀ q ∈ ports, (coms p).table = (coms q).table
  versionNum : ∀ p ∈ ports, ∀ q ∈ ports, (coms p).versionNum = (coms q).versionNum

theorem InStep.subset (same : InStep ports coms) (fewer : ports' ⊆ ports) : InStep ports' coms :=
  ⟨fun p inP q inQ => same.table p (fewer inP) q (fewer inQ),
    fun p inP q inQ => same.versionNum p (fewer inP) q (fewer inQ)⟩

/-- A joiner's address leads to it, and an update fits its text. -/
def ClusterCall.Valid (object : Bytes → Server) : ClusterCall → Prop
  | .update _ u _ => u.Clean ∧ u.Fits
  | .join x => x.address.length = pointerSize ∧ x.address ≠ List.replicate pointerSize 0 ∧
      object x.address = x ∧ x.tcpPortNum ≠ routerTcpPortNum

/-- Nothing has been said yet. -/
structure ClusterStart (calls : Nat → ClusterCall) (dnsId : Nat → UInt8) (G : ClusterState) : Prop where
  threads : G.threads = clusterThreads calls dnsId
  free : ∀ l, G.locks l = none
  unconnected : G.next = 0
  idle : ∀ a, G.backlog a = []
  sized : G.mem.router.Sized
  apart : ∀ p ∈ G.mem.router.ports, p ≠ routerTcpPortNum
  neat : ∀ p, Neat (G.mem.coms p).ipHash.entries
  valid : ∀ n, (calls n).Valid G.mem.object

/-- The router's TCP thread is in a session. -/
def SessionOpen (G : ClusterState) : Prop := G.locks Lock.tcpMutex = some .router

end DnsServer
