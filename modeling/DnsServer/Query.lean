import DnsServer.Scoreboard

/-! A query on its way from the generator through a server to the scoreboard. -/
namespace DnsServer
open Memory

/-- What arrives of a crafted message in any full buffer parses to what was crafted. -/
theorem parse_crafted (domain : Bytes) (query : Bool) (id : UInt16) (ip : Option Bytes) (portNum : UInt16)
    (short : (cString domain).length ≤ 47) (room : sent.length = maxDnsBytes) :
    ∃ bytes written packet, craftMessage sent query id domain ip = some (bytes, written) ∧
      sendPacket portNum written bytes = some packet ∧ packet.portNum = portNum ∧
      ∀ buffer : Bytes, buffer.length = maxDnsBytes → ∀ stale,
        ∃ n arrived message, recieveMessage buffer (some packet.message) = (n, arrived) ∧
          parseMessage arrived (some stale) n = some (0, some message) ∧
          message.header = (craftHeader query id ip).flipHeaderEndian ∧
          message.question.domain = cString domain ++ [0] := by
  obtain ⟨a, c, rest, crafted⟩ := exists_craftMessage sent query id domain ip
    (by rw [room]; simp only [maxDnsBytes]; omega)
  have count : (UInt8.ofNat ((cString domain).length + 17)).toNat = (cString domain).length + 17 := by
    rw [UInt8.toNat_ofNat']
    omega
  let text := (craftHeader query id ip).toBytes ++ (cString domain ++ 0 :: a :: 1 :: c :: 1 :: [])
  have textLength : text.length = (cString domain).length + 17 := by
    simp only [text, List.length_append, Header.length_toBytes, Header.size, List.length_cons,
      List.length_nil]
    omega
  refine ⟨_, _, ⟨portNum, text⟩, crafted, ?_, rfl, ?_⟩
  · have whole := read_append [] text rest
    rw [List.nil_append, textLength, List.length_nil] at whole
    rw [sendPacket, count, show _ ++ (cString domain ++ 0 :: a :: 1 :: c :: 1 :: rest) = text ++ rest
      from by simp [text], whole]
    rfl
  · intro buffer full stale
    have all : text.take buffer.length = text := by
      rw [List.take_of_length_le (by rw [full, textLength]; simp only [maxDnsBytes]; omega)]
    have layout := parseMessage_layout (craftHeader query id ip) (zero_not_mem_cString domain)
      (show _ ≤ (UInt8.ofNat ((cString domain).length + 17)).toNat by omega) stale a 1
      (c :: 1 :: buffer.drop text.length)
    have arrived : text ++ buffer.drop text.length = (craftHeader query id ip).toBytes ++
        (cString domain ++ 0 :: a :: 1 :: c :: 1 :: buffer.drop text.length) := by
      simp [text]
    refine ⟨_, _, _, ?_, (congrArg (parseMessage · _ _) arrived).trans layout, rfl, rfl⟩
    simp only [recieveMessage, all, textLength]

/-- A query is answered and its entry, alone, is scored by whether the table has the domain. -/
theorem query_scored (server : Server) (coms : Coms) (clean : 0 ∉ domain)
    (short : domain.length ≤ 47) (id : UInt16) (notPing : id ≠ pingId)
    (sentSize : sent.length = maxDnsBytes) (requestSize : request.length = maxDnsBytes)
    (replySize : reply.length = maxDnsBytes) (handler : ResponseHandler Time)
    (answerSize : handler.buffer.length = maxDnsBytes) (dnsQuery : Message) (elapsedTime : Time)
    (waiting : handler.scoreboard.queue = before ++ r :: after) (mine : r.id = id)
    (alone : ∀ e ∈ before ++ after, e.id ≠ id) :
    ∃ bytes written query, craftMessage sent true id domain none = some (bytes, written) ∧
      sendPacket server.portNum written bytes = some query ∧
    ∃ request' packet, queryHandler server coms request (some query.message) dnsQuery reply =
        some (request', [packet]) ∧ packet.portNum = server.scoreboardPort ∧
    ∃ handler', dnsResponseHandler handler (some packet.message) elapsedTime = some handler' ∧
      handler'.scoreboard.written ++ handler'.scoreboard.queue =
        handler.scoreboard.written ++ (before ++ { r with
          recieved := 1
          found := if domain ∈ coms.table then 1 else 0
          finishTime := elapsedTime } :: after) := by
  have name : cString domain = domain := cString_of_clean clean
  obtain ⟨bytes, written, query, crafted, sentQuery, _, arrives⟩ :=
    parse_crafted domain true id none server.portNum (by rw [name]; exact short) sentSize
  obtain ⟨n, arrived, message, recieved, parsed, header, copied⟩ :=
    arrives request requestSize dnsQuery
  have isQuery : message.header.qr ≠ 1 := by
    rw [header]
    change BitVec.ofBool (!true) ≠ 1
    decide
  have sameId : message.header.id = id := by
    rw [header]
    exact ntohs_htons id
  have sameName : cString message.question.domain = domain := by
    rw [copied, cString_append_zero (zero_not_mem_cString _), name]
  obtain ⟨bytes', written', packet, answered, sentReply, toScoreboard, returns⟩ :=
    parse_crafted message.question.domain false id
      (translateIp coms message.question.domain) server.scoreboardPort
      (by rw [sameName]; exact short) replySize
  obtain ⟨n', arrived', answer, recieved', parsed', header', _⟩ :=
    returns handler.buffer answerSize handler.dnsMessage
  refine ⟨bytes, written, query, crafted, sentQuery, arrived, packet, ?_, toScoreboard, ?_⟩
  · simp only [queryHandler, recieved, recieveRequest, parsed, Option.bind_eq_bind, Option.bind_some,
      if_neg isQuery, sameId, if_neg notPing, answered, sentReply, Option.pure_def]
  · simp only [dnsResponseHandler, recieved', parsed', Option.bind_eq_bind, Option.bind_some,
      Option.pure_def, Option.some.injEq, exists_eq_left', recieveDnsAnswer_rows, waiting,
      List.map_append, List.map_cons]
    have answerId : answer.header.id = id := by
      rw [header']
      exact ntohs_htons id
    have rcode : answer.header.rcode = 0x3 ↔ domain ∉ coms.table := by
      rw [header', ← sameName, ← translateIp_isSome, Bool.not_eq_true, Option.isSome_eq_false_iff]
      cases translateIp coms message.question.domain <;> simp [craftHeader, Header.flipHeaderEndian]
    have others : ∀ l : List (Results Time), (∀ e ∈ l, e.id ≠ id) → ∀ v,
        l.map (Results.answer id v elapsedTime) = l := by
      intro l differ v
      exact (List.map_congr_left fun e member => answer_of_ne (differ e member)).trans (List.map_id l)
    rw [answerId, others before fun e member => alone e (List.mem_append_left _ member),
      others after fun e member => alone e (List.mem_append_right _ member)]
    simp only [Results.answer, mine, if_true, rcode]
    split <;> simp_all

/-- A table of two names. -/
def twoNames : Coms :=
  { emptyComs 0 with ipHash := ((∅ : Hash).insert [97, 46, 98] [49, 46, 50]).insert [99] [51] }

/-- A handler with one row written, and a request waiting among others. -/
def threeWaiting : ResponseHandler Nat where
  dnsMessage := rootQuestion
  buffer := List.replicate 64 0
  scoreboard := ⟨[⟨3, 6, 0, 0, 0, 0, 0⟩, ⟨5, 7, 0, 0, 0, 0, 0⟩, ⟨6, 8, 1, 0, 1, 7, 0⟩], [⟨1, 5, 0, 0, 1, 2, 1⟩]⟩

theorem query_scored_known : [97, 46, 98] ∈ twoNames.table ∧
    ∃ bytes written query,
      craftMessage (List.replicate 64 0) true 7 [97, 46, 98] none = some (bytes, written) ∧
      sendPacket 1053 written bytes = some query ∧
    ∃ request packet, queryHandler (createDnsServer [] 0 1050 1053) twoNames
        (List.replicate 64 0) (some query.message) rootQuestion (List.replicate 64 0) =
          some (request, [packet]) ∧ packet.portNum = 1050 ∧
    ∃ handler, dnsResponseHandler threeWaiting (some packet.message) 9 = some handler ∧
      handler.scoreboard.written ++ handler.scoreboard.queue =
        [⟨1, 5, 0, 0, 1, 2, 1⟩] ++ ([⟨3, 6, 0, 0, 0, 0, 0⟩] ++ { (⟨5, 7, 0, 0, 0, 0, 0⟩ : Results Nat) with
          recieved := 1
          found := if [97, 46, 98] ∈ twoNames.table then 1 else 0
          finishTime := 9 } :: [⟨6, 8, 1, 0, 1, 7, 0⟩]) :=
  ⟨by decide, query_scored (createDnsServer [] 0 1050 1053) twoNames (by decide) (by decide) 7 (by decide)
    (by decide) (by decide) (by decide) threeWaiting (by decide) rootQuestion 9 rfl rfl (by decide)⟩

end DnsServer
