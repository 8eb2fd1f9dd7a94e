import DnsServer.Process.Rely
import DnsServer.Query
import DnsServer.Router.Programs

/-! The router's health rounds among servers that answer when they like. Pings and pongs are delayed
without bound, and are told apart by the round that they belong to, which no message carries. -/
namespace DnsServer
open Process Relation Memory

/-- `round` is the round that sent the ping. -/
structure Ping where
  round : Nat
  portNum : UInt16
  message : Bytes
  deriving DecidableEq

/-- `round` is the round of the ping that the server answered. -/
structure Pong where
  round : Nat
  server : Server
  message : Bytes
  deriving DecidableEq

/-- `pings` and `pongs` are on the way, and `socket` holds the pongs that have arrived. For the round
`round`: the rotation that it began with, the servers added since, and all pongs ever sent. -/
structure Health where
  mem : Mem
  locks : Lock → Bool
  pings : List Ping
  pongs : List Pong
  socket : List Pong
  round : Nat
  begun : List Server
  joined : List Server
  answers : List Pong

namespace Health

def rotation (e : Health) : List Server := e.mem.router.rotation

/-- What the round's requests are answered. There are no connections in a round. -/
def reply (world : World) (e : Health) : (call : platform.Call) → Option (call.Reply × Health)
  | .lock l => if e.locks l then none else some ((), { e with locks := Function.update e.locks l true })
  | .unlock l => some ((), { e with locks := Function.update e.locks l false })
  | .act (.sendPacket portNum message) =>
    (world (.sendPacket portNum message)).map fun error =>
      (error, { e with pings := ⟨e.round, portNum, message⟩ :: e.pings })
  | .act .recvfrom =>
    match e.socket with
    | [] => some (none, e)
    | pong :: rest => some (some (pong.message.take 1), { e with socket := rest })
  | .act op => (e.mem.perform world op).map fun (r, mem) => (r, { e with mem })
  | .connect _ => none
  | .accept _ => none
  | .send _ _ => none
  | .recv _ _ => none
  | .close _ => none

/-- A new round: what came of the one before is not looked at. -/
def begin (e : Health) : Health := { e with round := e.round + 1, begun := e.rotation, joined := [] }

/-- The server has handled the ping, and the packets to the router are pongs. -/
def answered (e : Health) (ping : Ping) (server : Server) (packets : List Packet) : Health :=
  let pongs := (packets.filter (·.portNum = routerPortNum)).map fun packet =>
    ⟨ping.round, server, packet.message⟩
  { e with
    pings := e.pings.erase ping
    pongs := e.pongs ++ pongs
    answers := e.answers ++ pongs }

/-- The server answered a ping of this round. -/
def Answered (e : Health) (server : Server) : Prop :=
  ∃ pong ∈ e.answers, pong.round = e.round ∧ pong.server = server

/-- Every server that was in the rotation when the round began, and is in it still, answered a ping
of the round. One that has been added since has not stayed. -/
def Judged (e : Health) : Prop :=
  ∀ server ∈ e.begun, server ∈ e.rotation → server ∉ e.joined → e.Answered server

end Health

/-- What happens beside a round: a server joins, a server answers a ping, a pong arrives. A server
that pauses answers later. -/
inductive Drift (all : Server → Prop) : Health → Health → Prop where
  | join : all dns → e.locks .mutex = false → e.mem.router.addServer dns = some router →
      Drift all e { e with mem := { e.mem with router }, joined := dns :: e.joined }
  | answer : ping ∈ e.pings → all server → server.portNum = ping.portNum → request.length = maxDnsBytes →
      queryHandler server coms request (some ping.message) dnsQuery buffer = some (request₁, packets) →
      Drift all e (e.answered ping server packets)
  | deliver : pong ∈ e.pongs →
      Drift all e { e with pongs := e.pongs.erase pong, socket := e.socket ++ [pong] }

/-- What is left of the current round, and its surroundings. -/
abbrev Rounds := Proc UInt8 × Health

/-- The round's requests, those that are `allowed`. -/
def Health.Replies (allowed : Health → platform.Call → Prop) (e : Health) (call : platform.Call) (r : call.Reply)
    (e₁ : Health) : Prop :=
  allowed e call ∧ ∃ world, e.reply world call = some (r, e₁)

/-- One round follows another, like the turns of `checkServers`. -/
inductive Rounds.Step (all : Server → Prop) (allowed : Health → platform.Call → Prop) : Rounds → Rounds → Prop where
  | within : Shared (Health.Replies allowed) (Drift all) X Y → Step all allowed X Y
  | next : Step all allowed (.ret code, e) (queryResponseTime, e.begin)

/-- A pong that is taken from the socket answers a ping of this round. -/
def Health.Timely (e : Health) (call : platform.Call) : Prop :=
  call = .act .recvfrom → ∀ pong ∈ e.socket.head?, pong.round = e.round

/-- The servers that there are. -/
structure Population (all : Server → Prop) : Prop where
  small : ∀ server, all server → server.id.toNat < 256
  distinct : ∀ server other, all server → all other → server.id = other.id → server = other

/-- The first round, with nothing on the way. -/
structure Rounds.Start (all : Server → Prop) (X : Rounds) : Prop where
  program : X.1 = queryResponseTime
  sized : X.2.mem.router.Sized
  servers : ∀ server ∈ X.2.rotation, all server
  pings : X.2.pings = []
  pongs : X.2.pongs = []
  socket : X.2.socket = []
  answers : X.2.answers = []
  begun : X.2.begun = X.2.rotation
  joined : X.2.joined = []

/-! The pings that the router sends, and what a server makes of them. -/

def IsPing (message : Bytes) : Prop :=
  ∃ sent bytes written, sent.length = maxDnsBytes ∧
    craftMessage sent true pingId [0] none = some (bytes, written) ∧ message = written.take bytes.toNat

/-- A server answers a ping with its id. -/
theorem ping_answered (server : Server) (coms : Coms) (ping : IsPing message) (full : request.length = maxDnsBytes)
    (dnsQuery : Message) (buffer : Bytes) :
    ∃ request₁, queryHandler server coms request (some message) dnsQuery buffer =
      some (request₁, [⟨server.routerPort, [server.id.toUInt8]⟩]) := by
  obtain ⟨sent, bytes, written, size, crafted, rfl⟩ := ping
  obtain ⟨_, _, packet, crafted₁, sentPacket, _, arrives⟩ :=
    parse_crafted [0] true pingId none server.portNum (by decide) size
  cases crafted.symm.trans crafted₁
  simp only [sendPacket, Memory.read, List.drop_zero, Option.map_eq_some_iff, Option.ite_none_right_eq_some,
    Option.some.injEq] at sentPacket
  obtain ⟨_, ⟨_, rfl⟩, rfl⟩ := sentPacket
  obtain ⟨n, arrived, query, recieved, parsed, header, _⟩ := arrives request full dnsQuery
  have isQuery : query.header.qr ≠ 1 := by
    rw [header]
    change BitVec.ofBool (!true) ≠ 1
    decide
  have isPing : query.header.id = pingId := by
    rw [header]
    exact ntohs_htons pingId
  refine ⟨arrived, ?_⟩
  simp only [queryHandler, recieved, recieveRequest, parsed, Option.bind_eq_bind, Option.bind_some,
    if_neg isQuery, if_pos isPing]
  rfl

end DnsServer
