import DnsServer.Dns.Crafting
import DnsServer.Process.Trace
import DnsServer.Router.Programs

/-! The generator's queries, and what the three senders of crafted messages put on the wire. -/
namespace DnsServer
open Process Program Memory

/-- The id of the server that the query went to, which the scoreboard is given. `random` is the
byte that `rand` gives. -/
def sendSingleTest (domains : List Bytes) (domainCnt random : UInt8) (id : UInt16) :
    Proc (Option UInt8) := do
  let buffer ← act (.garbage maxDnsBytes)
  if domainCnt = 0 then fault
  match domains[(random % domainCnt).toNat]? with
  | none => fault
  | some domain =>
    match craftMessage buffer.val true id domain none with
    | none => fault
    | some (messageLen, buffer) =>
      let (_, dnsId) ← forwardRequest (buffer.take messageLen.toNat)
      return dnsId

def packetOf (event : Event platform.interface) : Option Bytes :=
  match event.op with
  | .act (.sendPacket _ message) => some message
  | _ => none

/-- What an uninitialised local holds. -/
def stackOf : Event platform.interface → Option Bytes
  | ⟨.act (.garbage _), bytes⟩ => some bytes.val
  | _ => none

/-- The message is the one crafted in the buffer, and it asks for type 1 and class 1 exactly when
the two bytes that crafting leaves were zero there. -/
def SentFrom (query : Bool) (id : UInt16) (domain : Bytes) (ip : Option Bytes) (buffer message : Bytes) : Prop :=
  sentMessage buffer query id domain ip = some message ∧
    (AsksInternet domain message ↔ staleBytes domain buffer = [some 0, some 0])

theorem exists_sentFrom (query : Bool) (id : UInt16) (ip : Option Bytes) (clean : 0 ∉ domain)
    (short : domain.length ≤ 47) (size : buffer.length = maxDnsBytes) :
    ∃ message, SentFrom query id domain ip buffer message := by
  obtain ⟨_, _, _, sent⟩ := sentMessage_stale query id ip clean short size
  exact ⟨_, sent, sentMessage_asks_iff clean short size sent⟩

/-- Crafting looks at a name up to its NUL only. -/
theorem sentFrom_of_crafted {id : UInt16} (clean : 0 ∉ cString domain) (short : (cString domain).length ≤ 47)
    (size : buffer.length = maxDnsBytes)
    (crafted : craftMessage buffer query id domain ip = some (bytes, written)) :
    SentFrom query id (cString domain) ip buffer (written.take bytes.toNat) := by
  have sent : sentMessage buffer query id (cString domain) ip = some (written.take bytes.toNat) := by
    have same : craftMessage buffer query id (cString domain) ip = craftMessage buffer query id domain ip := by
      simp only [craftMessage, cString_cString]
    rw [sentMessage, same, crafted]
    rfl
  exact ⟨sent, sentMessage_asks_iff clean short size sent⟩

/-- The pings in these events are the crafted ones, one for each buffer. -/
def PingsSent (tr : List (Event platform.interface)) : Prop :=
  List.Forall₂ (SentFrom true pingId [] none) (tr.filterMap stackOf) (tr.filterMap packetOf)

theorem PingsSent.append (first : PingsSent tr) (second : PingsSent tr₁) : PingsSent (tr ++ tr₁) := by
  rw [PingsSent, List.filterMap_append, List.filterMap_append]
  exact List.rel_append first second

theorem sendPings_sent (traced : Traces sendPings tr u) : PingsSent tr := by
  have obeys : sendPings.Obeys (recording platform.interface) (fun _ tr => PingsSent tr) [] := by
    refine ⟨fun _ tr => PingsSent tr, .nil, fun i tr sent => ⟨trivial, ?_⟩⟩
    simp only [act, request, bind_eq, pure_eq, call_bind, ret_bind]
    refine obeys_recording fun router => ?_
    have sent₁ : PingsSent (tr ++ [⟨.act .router, router⟩]) := sent.append .nil
    split
    · exact sent₁
    refine obeys_recording fun buffer => ?_
    split
    · exact obeys_recording fun impossible => impossible.elim
    next crafted =>
    split
    · exact obeys_recording fun impossible => impossible.elim
    refine obeys_recording fun error => ?_
    rw [List.append_assoc]
    have ping := sentFrom_of_crafted (by decide) (by decide) buffer.property crafted
    have empty : cString [0] = [] := by decide
    rw [empty] at ping
    exact sent₁.append (.cons ping .nil)
  exact obeys.traces traced

/-- A forwarded message is sent as it is, or not at all. -/
theorem forwardRequest_sends (traced : Traces (forwardRequest message) tr result) :
    tr.filterMap stackOf = [] ∧ ∀ sent ∈ tr.filterMap packetOf, sent = message := by
  have obeys : (forwardRequest message).Obeys (recording platform.interface)
      (fun _ tr => tr.filterMap stackOf = [] ∧ ∀ sent ∈ tr.filterMap packetOf, sent = message) [] := by
    simp only [forwardRequest, lock, unlock, act, request, bind_eq, pure_eq, call_bind, ret_bind]
    refine obeys_recording fun _ => obeys_recording fun router => ?_
    split
    · exact obeys_recording fun impossible => impossible.elim
    refine obeys_recording fun _ => obeys_recording fun router => ?_
    split
    · exact ⟨rfl, List.forall_mem_nil _⟩
    split
    · exact obeys_recording fun impossible => impossible.elim
    refine obeys_recording fun error => obeys_recording fun _ => ?_
    exact ⟨rfl, List.forall_mem_singleton.mpr rfl⟩
  exact obeys.traces traced

theorem sendSingleTest_sent {id : UInt16} (clean : 0 ∉ domain) (short : domain.length ≤ 47)
    (picked : domains[(random % domainCnt).toNat]? = some domain)
    (traced : Traces (sendSingleTest domains domainCnt random id) tr result) :
    ∃ buffer, tr.filterMap stackOf = [buffer] ∧
      ∀ message ∈ tr.filterMap packetOf, SentFrom true id domain none buffer message := by
  have name : cString domain = domain := cString_of_clean clean
  simp only [sendSingleTest, act, request, bind_eq, pure_eq, call_bind, ret_bind, fault_bind,
    traces_call_iff] at traced
  obtain ⟨buffer, rest, rfl, traced⟩ := traced
  split at traced
  · obtain ⟨impossible, _⟩ := traces_call_iff.mp traced
    exact impossible.elim
  rw [picked] at traced
  split at traced
  · next missing => cases missing
  next found =>
  cases found
  split at traced
  · obtain ⟨impossible, _⟩ := traces_call_iff.mp traced
    exact impossible.elim
  next crafted =>
  obtain ⟨_, before, after, rfl, forwarded, done⟩ := traced.split
  obtain ⟨_, rfl⟩ := traces_ret_iff.mp done
  obtain ⟨locals, sent⟩ := forwardRequest_sends forwarded
  rw [List.append_nil]
  refine ⟨buffer.val, congrArg (buffer.val :: ·) locals, fun message member => ?_⟩
  rw [sent message member]
  have one := sentFrom_of_crafted (by rwa [name]) (by rwa [name]) buffer.property crafted
  rwa [name] at one

/-- The reply to a query is the message crafted in the buffer for it. -/
theorem recieveRequest_sent (server : Server) (coms : Coms)
    (accepted : parseMessage message (some dnsQuery) n = some (0, some query)) (isQuery : query.header.qr = 0)
    (notPing : query.header.id ≠ pingId) (size : reply.length = maxDnsBytes)
    (name : cString query.question.domain = domain) (short : domain.length ≤ 47) :
    ∃ answer, SentFrom false query.header.id domain (translateIp coms query.question.domain) reply answer ∧
      recieveRequest server coms message n dnsQuery reply = some (0, [⟨server.scoreboardPort, answer⟩]) := by
  subst name
  have crafts : (craftMessage reply false query.header.id query.question.domain
      (translateIp coms query.question.domain)).isSome := (craftMessage_fits_iff size).mpr short
  obtain ⟨⟨length, written⟩, crafted⟩ := Option.isSome_iff_exists.mp crafts
  obtain ⟨count, same⟩ := craftMessage_lengths crafted
  have fits : length.toNat ≤ written.length := by
    rw [count, same, size, UInt8.toNat_ofNat']
    simp only [maxDnsBytes]
    omega
  exact ⟨_, sentFrom_of_crafted (zero_not_mem_cString _) short size crafted,
    recieveRequest_accepted server coms accepted isQuery notPing crafted fits⟩

/-- What is sent is the same for two buffers exactly when the two bytes that crafting leaves are, and the
question has type 1 and class 1 exactly when they are zero: for pings, for queries and for replies. -/
structure StaleShows (domain : Bytes) : Prop where
  same : ∀ query id ip buffer buffer₁, buffer.length = maxDnsBytes → buffer₁.length = maxDnsBytes →
    (sentMessage buffer query id domain ip = sentMessage buffer₁ query id domain ip ↔
      staleBytes domain buffer = staleBytes domain buffer₁)
  crafted : ∀ query id ip buffer, buffer.length = maxDnsBytes →
    ∃ message, SentFrom query id domain ip buffer message
  pings : ∀ tr u, Traces sendPings tr u → PingsSent tr
  queries : ∀ domains domainCnt random id tr result, domains[(random % domainCnt).toNat]? = some domain →
    Traces (sendSingleTest domains domainCnt random id) tr result →
      ∃ buffer, tr.filterMap stackOf = [buffer] ∧
        ∀ message ∈ tr.filterMap packetOf, SentFrom true id domain none buffer message
  replies : ∀ server coms message n dnsQuery query reply,
    parseMessage message (some dnsQuery) n = some (0, some query) → query.header.qr = 0 →
    query.header.id ≠ pingId → reply.length = maxDnsBytes → cString query.question.domain = domain →
      ∃ answer, SentFrom false query.header.id domain (translateIp coms query.question.domain) reply answer ∧
        recieveRequest server coms message n dnsQuery reply = some (0, [⟨server.scoreboardPort, answer⟩])

theorem messages_stale_iff (clean : 0 ∉ domain) (short : domain.length ≤ 47) : StaleShows domain where
  same query id ip _ _ size size₁ := sentMessage_same_iff query id ip clean short size size₁
  crafted query id ip _ size := exists_sentFrom query id ip clean short size
  pings _ _ traced := sendPings_sent traced
  queries _ _ _ _ _ _ picked traced := sendSingleTest_sent clean short picked traced
  replies server coms _ _ _ _ _ accepted isQuery notPing size name :=
    recieveRequest_sent server coms accepted isQuery notPing size name short

/-- The messages for `new.domain`. -/
theorem messages_stale_name : StaleShows [110, 101, 119, 46, 100, 111, 109, 97, 105, 110] :=
  messages_stale_iff (by decide) (by decide)

/-- A ping from a buffer of ones asks for type 257, not for type 1. -/
theorem ping_leaks :
    sentMessage (List.replicate 64 0) true pingId [] none ≠ sentMessage (List.replicate 64 1) true pingId [] none ∧
    ∃ message, sentMessage (List.replicate 64 1) true pingId [] none = some message ∧ ¬ AsksInternet [] message := by
  refine ⟨by decide, _, rfl, by unfold AsksInternet; decide⟩

end DnsServer
