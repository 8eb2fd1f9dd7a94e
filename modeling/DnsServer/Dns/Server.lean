import DnsServer.Coms.Table
import DnsServer.Dns.Message

/-! The datagram side of a server: receiving a request and answering it. -/
namespace DnsServer
open Memory

def maxDnsBytes : Nat := 64

/-- The id that marks a health ping. -/
def pingId : UInt16 := (1 : UInt16) <<< 15

def routerPortNum : UInt16 := 2055
def routerTcpPortNum : UInt16 := 2056

/-- `address` is the pointer to the object, as bytes. -/
structure Server where
  address : Bytes
  id : UInt16
  portNum : UInt16
  tcpPortNum : UInt16
  scoreboardPort : UInt16
  routerPort : UInt16
  deriving DecidableEq

def createDnsServer (address : Bytes) (serverCount scoreboardPort recievingPort : UInt16) : Server where
  address := address
  id := serverCount
  portNum := recievingPort
  tcpPortNum := recievingPort + 128
  scoreboardPort := scoreboardPort
  routerPort := routerPortNum

structure Packet where
  portNum : UInt16
  message : Bytes
  deriving DecidableEq

def sendPacket (portNum : UInt16) (message : Bytes) (messageLen : UInt8) : Option Packet :=
  (read message 0 messageLen.toNat).map (Packet.mk portNum)

/-- The length and the buffer after receiving a datagram, or an error whose -1
is kept in a byte. -/
def recieveMessage (buffer : Bytes) (datagram : Option Bytes) : UInt8 × Bytes :=
  match datagram with
  | none => (255, buffer)
  | some datagram =>
    let taken := datagram.take buffer.length
    (UInt8.ofNat taken.length, taken ++ buffer.drop taken.length)

/-- The error code and the packets sent. `dnsQuery` and `reply` are the memory that
the two locals start with. -/
def recieveRequest (server : Server) (coms : Coms) (message : Bytes) (messageBytes : UInt8)
    (dnsQuery : Message) (reply : Bytes) : Option (UInt8 × List Packet) := do
  match ← parseMessage message (some dnsQuery) messageBytes with
  | (0, some dnsQuery) =>
    if dnsQuery.header.qr = 1 then return (2, [])
    let resultIp := translateIp coms dnsQuery.question.domain
    if dnsQuery.header.id = pingId then
      let packet ← sendPacket server.routerPort [server.id.toUInt8] 1
      return (0, [packet])
    else
      let (messageBytes, reply) ←
        craftMessage reply false dnsQuery.header.id dnsQuery.question.domain resultIp
      let packet ← sendPacket server.scoreboardPort reply messageBytes
      return (0, [packet])
  | _ => return (1, [])

/-- One turn of the loop: the buffer is the one the turn before left. -/
def queryHandler (server : Server) (coms : Coms) (buffer : Bytes) (datagram : Option Bytes)
    (dnsQuery : Message) (reply : Bytes) : Option (Bytes × List Packet) := do
  let (messageLen, buffer) := recieveMessage buffer datagram
  let (_, packets) ← recieveRequest server coms buffer messageLen dnsQuery reply
  return (buffer, packets)

/-- Every byte of the reply lies in its buffer and the length sent is the buffer's at most. -/
def ReplyFits (server : Server) (coms : Coms) (query : Message) (message : Bytes)
    (messageBytes : UInt8) (dnsQuery : Message) (reply : Bytes) : Prop :=
  ∃ length written,
    craftMessage reply false query.header.id query.question.domain
      (translateIp coms query.question.domain) = some (length, written) ∧
    length.toNat ≤ maxDnsBytes ∧
    recieveRequest server coms message messageBytes dnsQuery reply =
      some (0, [⟨server.scoreboardPort, written.take length.toNat⟩])

theorem recieveRequest_accepted (server : Server) (coms : Coms)
    (accepted : parseMessage message (some dnsQuery) messageBytes = some (0, some query))
    (isQuery : query.header.qr = 0) (notPing : query.header.id ≠ pingId)
    (crafted : craftMessage reply false query.header.id query.question.domain
      (translateIp coms query.question.domain) = some (length, written))
    (room : length.toNat ≤ written.length) :
    recieveRequest server coms message messageBytes dnsQuery reply =
      some (0, [⟨server.scoreboardPort, written.take length.toNat⟩]) := by
  have notReply : query.header.qr ≠ 1 := by rw [isQuery]; decide
  simp only [recieveRequest, accepted, crafted, Option.bind_eq_bind, Option.bind_some,
    if_neg notReply, if_neg notPing, sendPacket, Memory.read, Nat.zero_add, if_pos room,
    List.drop_zero, Option.map_some, Option.pure_def]

/-- The buffer of a message has room for names of 47 bytes. -/
theorem craftMessage_fits_iff {domain : Bytes} {id : UInt16} (size : buffer.length = maxDnsBytes) :
    (craftMessage buffer query id domain ip).isSome ↔ (cString domain).length ≤ 47 := by
  rw [craftMessage_isSome_iff, size]
  simp only [maxDnsBytes]
  omega

/-- The reply to an accepted query fits its buffer exactly when a NUL ends the name
within its first 48 bytes; the parser lets names of 48 bytes through. -/
theorem reply_fits_iff (server : Server) (coms : Coms) (message reply : Bytes) (n : UInt8)
    (dnsQuery query : Message) (replySize : reply.length = maxDnsBytes)
    (accepted : parseMessage message (some dnsQuery) n = some (0, some query))
    (isQuery : query.header.qr = 0) (notPing : query.header.id ≠ pingId) :
    ReplyFits server coms query message n dnsQuery reply ↔ 0 ∈ (message.drop 12).take 48 := by
  obtain ⟨k, room, clean, ends, copied⟩ := parseMessage_accepted accepted
  have within : k < (message.drop 12).length := (List.getElem?_eq_some_iff.mp ends).1
  have name : cString query.question.domain = (message.drop 12).take k := by
    rw [copied, List.take_add_one, ends]
    exact cString_append_zero clean []
  have nameLength : (cString query.question.domain).length = k := by
    rw [name, List.length_take]
    omega
  have fits : (craftMessage reply false query.header.id query.question.domain
      (translateIp coms query.question.domain)).isSome ↔ k ≤ 47 := by
    rw [craftMessage_fits_iff replySize, nameLength]
  have short : 0 ∈ (message.drop 12).take 48 ↔ k ≤ 47 := by
    constructor
    · intro member
      by_contra long
      have inside : (message.drop 12).take 48 ⊆ (message.drop 12).take k := by
        rw [show 48 = min 48 k from by omega, ← List.take_take]
        exact List.take_subset _ _
      exact clean (inside member)
    · intro small
      refine List.mem_iff_getElem?.mpr ⟨k, ?_⟩
      rw [List.getElem?_take_of_lt (by omega), ends]
  rw [short]
  constructor
  · rintro ⟨length, written, crafted, _⟩
    exact fits.mp (by rw [crafted]; rfl)
  · intro small
    obtain ⟨⟨length, written⟩, crafted⟩ := Option.isSome_iff_exists.mp (fits.mpr small)
    obtain ⟨sent, same⟩ := craftMessage_lengths crafted
    have bound : length.toNat ≤ maxDnsBytes := by
      rw [sent, nameLength, UInt8.toNat_ofNat']
      simp only [maxDnsBytes]
      omega
    exact ⟨length, written, crafted, bound,
      recieveRequest_accepted server coms accepted isQuery notPing crafted (by omega)⟩

def rootQuestion : Message := ⟨⟨0, 0, 0, 0, 0, 0, 0, 0, 0, 0, 0, 0, 0⟩, ⟨[0], 0, 0⟩⟩

theorem reply_fits_root :
    ReplyFits (createDnsServer [] 0 1050 1053) (emptyComs 0) rootQuestion (List.replicate 64 0) 17
        rootQuestion (List.replicate 64 0) ↔
      0 ∈ ((List.replicate 64 (0 : UInt8)).drop 12).take 48 :=
  reply_fits_iff _ _ _ _ _ _ _ (by decide) (by decide) (by decide) (by decide)

/-- A query for a name of 48 bytes, of the largest size that is received. -/
def longQuery : Bytes := List.replicate 12 0 ++ List.replicate 48 97 ++ List.replicate 4 0

def longQuestion : Message :=
  ⟨⟨0, 0, 0, 0, 0, 0, 0, 0, 0, 0, 0, 0, 0⟩, ⟨List.replicate 48 97 ++ [0], 0, 0⟩⟩

theorem longQuery_overruns :
    parseMessage longQuery (some longQuestion) 64 = some (0, some longQuestion) ∧
    longQuestion.header.qr = 0 ∧ longQuestion.header.id ≠ pingId ∧
    ¬ ReplyFits (createDnsServer [] 0 1050 1053) (emptyComs 0) longQuestion longQuery 64
      longQuestion (List.replicate 64 0) := by
  refine ⟨by decide, by decide, by decide, ?_⟩
  rintro ⟨length, written, crafted, _⟩
  have outside : craftMessage (List.replicate 64 0) false longQuestion.header.id
      longQuestion.question.domain none = none := by decide
  have missing : translateIp (emptyComs 0) longQuestion.question.domain = none := by decide
  rw [missing, outside] at crafted
  cases crafted

end DnsServer
