import DnsServer.Generator
import DnsServer.Query

/-! What becomes of one request: sent to a server that the router picks, answered by it, and scored. -/
namespace DnsServer
open Process Program Memory
variable {Time : Type} {query : Bool} {id : UInt16} {domain message buffer request reply : Bytes} {ip : Option Bytes}

/-- The message is what crafting, in some buffer, gives to be sent. -/
def Crafted (query : Bool) (id : UInt16) (domain : Bytes) (ip : Option Bytes) (message : Bytes) : Prop :=
  ∃ buffer, buffer.length = maxDnsBytes ∧ sentMessage buffer query id domain ip = some message

theorem crafted_of_sent {bytes : UInt8} {written : Bytes} (size : buffer.length = maxDnsBytes)
    (crafted : craftMessage buffer query id domain ip = some (bytes, written)) :
    Crafted query id domain ip (written.take bytes.toNat) :=
  ⟨buffer, size, by rw [sentMessage, crafted]; rfl⟩

theorem length_recieved (buffer datagram : Bytes) :
    (recieveMessage buffer (some datagram)).2.length = buffer.length := by
  simp only [recieveMessage, List.length_append, List.length_take, List.length_drop]
  omega

/-- In whatever buffer it is received, the parser finds what was crafted. -/
theorem Crafted.parses (crafted : Crafted query id domain ip message) (full : buffer.length = maxDnsBytes)
    (stale : Message) : ∃ n arrived parsed, recieveMessage buffer (some message) = (n, arrived) ∧
      arrived.length = maxDnsBytes ∧ parseMessage arrived (some stale) n = some (0, some parsed) ∧
      parsed.header = craftedHeader query id ip ∧ parsed.question.domain = cString domain ++ [0] := by
  obtain ⟨sent, size, made⟩ := crafted
  obtain ⟨⟨bytes, written⟩, crafted, rfl⟩ := Option.map_eq_some_iff.mp made
  have short : (cString domain).length ≤ 47 := (craftMessage_fits_iff size).mp (by rw [crafted]; rfl)
  obtain ⟨_, _, packet, crafted₁, packed, _, arrives⟩ := parse_crafted domain query id ip 0 short size
  cases crafted.symm.trans crafted₁
  simp only [sendPacket, Memory.read, List.drop_zero, Option.map_eq_some_iff, Option.ite_none_right_eq_some,
    Option.some.injEq] at packed
  obtain ⟨_, ⟨_, rfl⟩, rfl⟩ := packed
  obtain ⟨n, arrived, parsed, recieved, accepted, header, copied⟩ := arrives buffer full stale
  refine ⟨n, arrived, parsed, recieved, ?_, accepted, header.trans (flip_craftHeader query id ip), copied⟩
  have length := length_recieved buffer (written.take bytes.toNat)
  rw [recieved] at length
  exact length.trans full

/-- A server answers a query with one message, by what its table has for the name. -/
theorem Crafted.answered (crafted : Crafted true id domain none message) (notPing : id ≠ pingId)
    (server : Server) (coms : Coms) (full : request.length = maxDnsBytes) (size : reply.length = maxDnsBytes)
    (dnsQuery : Message) : ∃ request₁ answer,
      queryHandler server coms request (some message) dnsQuery reply =
        some (request₁, [⟨server.scoreboardPort, answer⟩]) ∧
      Crafted false id (cString domain) (translateIp coms domain) answer := by
  obtain ⟨n, arrived, query, recieved, _, parsed, header, copied⟩ := crafted.parses full dnsQuery
  have name : cString query.question.domain = cString domain := by
    rw [copied, cString_append_zero (zero_not_mem_cString domain)]
  have short : (cString query.question.domain).length ≤ 47 := by
    obtain ⟨sent, size, made⟩ := crafted
    obtain ⟨⟨bytes, written⟩, crafted, rfl⟩ := Option.map_eq_some_iff.mp made
    rw [name]
    exact (craftMessage_fits_iff size).mp (by rw [crafted]; rfl)
  have crafts : (craftMessage reply false id query.question.domain
      (translateIp coms query.question.domain)).isSome := (craftMessage_fits_iff size).mpr short
  obtain ⟨⟨bytes, written⟩, answered⟩ := Option.isSome_iff_exists.mp crafts
  have same : translateIp coms query.question.domain = translateIp coms domain := by
    rw [translateIp, name, translateIp]
  obtain ⟨count, kept⟩ := craftMessage_lengths answered
  have fits : bytes.toNat ≤ written.length := by
    rw [count, kept, size, UInt8.toNat_ofNat']
    simp only [maxDnsBytes]
    omega
  have isQuery : query.header.qr = 0 := by
    rw [header]
    rfl
  have named : query.header.id = id := by
    rw [header]
    rfl
  rw [← named] at answered notPing
  have turn := recieveRequest_accepted server coms parsed isQuery notPing answered fits
  refine ⟨arrived, written.take bytes.toNat, ?_, ?_⟩
  · simp only [queryHandler, recieved, turn, Option.bind_eq_bind, Option.bind_some, Option.pure_def]
  · rw [named, same] at answered
    have crafts : craftMessage reply false id (cString domain) (translateIp coms domain) =
        craftMessage reply false id query.question.domain (translateIp coms domain) := by
      simp only [craftMessage, name, cString_cString]
    exact crafted_of_sent size (crafts.trans answered)

/-- The handler scores an answer by its id and by whether it has an address. -/
theorem Crafted.scored (crafted : Crafted false id domain ip message) (handler : ResponseHandler Time)
    (full : handler.buffer.length = maxDnsBytes) (elapsedTime : Time) : ∃ handler₁,
      dnsResponseHandler handler (some message) elapsedTime = some handler₁ ∧
      handler₁.buffer.length = maxDnsBytes ∧ handler₁.dnsMessage.header.id = id ∧ handler₁.scoreboard =
        (recieveDnsAnswer handler.scoreboard id (if ip.isSome then 1 else 0) elapsedTime).2 := by
  obtain ⟨n, arrived, answer, recieved, length, parsed, header, _⟩ := crafted.parses full handler.dnsMessage
  have named : answer.header.id = id := by
    rw [header]
    rfl
  have code : (if answer.header.rcode = 0x3 then (0 : UInt8) else 1) = if ip.isSome then 1 else 0 := by
    rw [header]
    cases ip <;> rfl
  refine ⟨⟨answer, arrived, (recieveDnsAnswer handler.scoreboard answer.header.id
    (if answer.header.rcode = 0x3 then 0 else 1) elapsedTime).2⟩, ?_, length, named, ?_⟩
  · simp only [dnsResponseHandler, recieved, parsed, Option.bind_eq_bind, Option.bind_some, Option.pure_def]
  · rw [named, code]

/-! The generator's side. -/

/-- The server that the next request goes to. -/
def Router.nextServer (r : Router) : Option Server := do
  let (chosen, _) ← chooseServer r.mode r.currServer r.serverCnt
  r.servers[chosen.toNat]?

/-- Runs a request by itself: it is sent, unless sending ends in an error. -/
def generating (world : World) (error : UInt8) : Handler platform.interface (Mem × List Packet)
  | e, .lock _ => some ((), e)
  | e, .unlock _ => some ((), e)
  | (m, packets), .act (.sendPacket portNum message) =>
    some (error, m, if error = 0 then packets ++ [⟨portNum, message⟩] else packets)
  | (m, packets), .act op => (m.perform world op).map fun (reply, m) => (reply, m, packets)
  | _, _ => none

/-- What a request does: one packet to the server that is next, whose id is returned, unless sending fails. -/
structure Requested (domain : Bytes) (id : UInt16) (m : Mem) (packets : List Packet) (dnsId : UInt8) (m₁ : Mem)
    (packets₁ : List Packet) (server : Server) : Prop where
  next : m.router.nextServer = some server
  listed : server ∈ m.router.servers
  dnsId : dnsId = server.id.toUInt8
  turned : ∃ chosenServer currServer,
    chooseServer m.router.mode m.router.currServer m.router.serverCnt = some (chosenServer, currServer) ∧
    m.router.servers[chosenServer.toNat]? = some server ∧ m₁ = { m with router := { m.router with currServer } }
  sent : packets₁ = packets ∨ ∃ message, Crafted true id domain none message ∧
    packets₁ = packets ++ [⟨server.portNum, message⟩]

theorem runs_fault {h : Handler platform.interface E} (ran : Runs h (fault : Proc α) e a e₁) : False := by
  obtain ⟨impossible, _⟩ := runs_call_iff.mp ran
  exact impossible.elim

theorem sendSingleTest_requests {m m₁ : Mem}
    (ran : Runs (generating world error) (sendSingleTest domains domainCnt random id) (m, packets) (some dnsId)
      (m₁, packets₁)) :
    ∃ domain server, domains[(random % domainCnt).toNat]? = some domain ∧
      Requested domain id m packets dnsId m₁ packets₁ server := by
  simp only [sendSingleTest, act, Program.request, bind_eq, pure_eq, call_bind, ret_bind, fault_bind] at ran
  obtain ⟨buffer, e₁, filled, ran⟩ := runs_call_iff.mp ran
  simp only [generating, Mem.perform, Option.map_map, Option.map_eq_some_iff] at filled
  obtain ⟨filling, _, same⟩ := filled
  cases same
  split at ran
  · exact (runs_fault ran).elim
  split at ran
  · exact (runs_fault ran).elim
  next domain picked =>
  split at ran
  · exact (runs_fault ran).elim
  next messageLen written crafted =>
  obtain ⟨⟨code, answer⟩, ⟨m₂, packets₂⟩, forwarded, done⟩ := Runs.split ran
  obtain ⟨rfl, same⟩ := runs_ret_iff.mp done
  cases same
  simp only [forwardRequest, lock, unlock, act, Program.request, bind_eq, pure_eq, call_bind, ret_bind] at forwarded
  obtain ⟨_, _, locked, forwarded⟩ := runs_call_iff.mp forwarded
  cases locked
  obtain ⟨router, _, read, forwarded⟩ := runs_call_iff.mp forwarded
  cases read
  split at forwarded
  · exact (runs_fault forwarded).elim
  next chosenServer currServer choice =>
  obtain ⟨_, _, turned, forwarded⟩ := runs_call_iff.mp forwarded
  cases turned
  obtain ⟨router, _, read, forwarded⟩ := runs_call_iff.mp forwarded
  cases read
  split at forwarded
  · obtain ⟨same, _⟩ := runs_ret_iff.mp forwarded
    cases same
  split at forwarded
  · exact (runs_fault forwarded).elim
  next server found =>
  obtain ⟨_, _, sent, forwarded⟩ := runs_call_iff.mp forwarded
  cases sent
  obtain ⟨_, _, unlocked, forwarded⟩ := runs_call_iff.mp forwarded
  cases unlocked
  obtain ⟨same, ends_⟩ := runs_ret_iff.mp forwarded
  cases same
  cases ends_
  change m.router.servers[chosenServer.toNat]? = some server at found
  have next : m.router.nextServer = some server := by
    simp only [Router.nextServer, choice, Option.bind_eq_bind, Option.bind_some, found]
  refine ⟨domain, server, picked, next, List.mem_of_getElem? found, rfl,
    ⟨chosenServer, currServer, choice, found, rfl⟩, ?_⟩
  split
  · exact .inr ⟨_, crafted_of_sent filling.property crafted, rfl⟩
  · exact .inl rfl

/-- A request is made where a name is picked that fits, and a server is online. -/
theorem sendSingleTest_runs (world : World) (domains : List Bytes) (domainCnt random : UInt8) (id : UInt16) {m : Mem}
    {written : Bytes} {buffer : { bytes : Bytes // bytes.length = maxDnsBytes }}
    (filled : world (.garbage maxDnsBytes) = some buffer) (some_ : domainCnt ≠ 0)
    (picked : domains[(random % domainCnt).toNat]? = some domain)
    (crafted : craftMessage buffer.val true id domain none = some (messageLen, written))
    (choice : chooseServer m.router.mode m.router.currServer m.router.serverCnt = some (chosenServer, currServer))
    (online : m.router.serverCnt ≠ 0) (found : m.router.servers[chosenServer.toNat]? = some server)
    (packets : List Packet) :
    Runs (generating world 0) (sendSingleTest domains domainCnt random id) (m, packets) (some server.id.toUInt8)
      ({ m with router := { m.router with currServer } },
        packets ++ [⟨server.portNum, written.take messageLen.toNat⟩]) := by
  simp only [sendSingleTest, act, Program.request, bind_eq, pure_eq, call_bind, ret_bind, fault_bind]
  refine .reply buffer (m, packets) (by simp [generating, Mem.perform, filled]) ?_
  rw [if_neg some_, picked]
  simp only [crafted]
  refine .bind (a := (0, some server.id.toUInt8)) ?_ .ret
  simp only [forwardRequest, lock, unlock, act, Program.request, bind_eq, pure_eq, call_bind, ret_bind]
  refine .reply () (m, packets) rfl (.reply m.router (m, packets) rfl ?_)
  simp only [choice]
  let turned : Mem := { m with router := { m.router with currServer } }
  refine .reply () (turned, packets) rfl (.reply turned.router (turned, packets) rfl ?_)
  rw [if_neg online]
  simp only [turned, found]
  exact .reply 0 _ rfl (.reply () _ rfl .ret)

end DnsServer
