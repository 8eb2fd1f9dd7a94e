import DnsServer.Scoreboard
import DnsServer.Dns.Parsing

/-! Receiving a datagram and parsing it, as the query handler and the response handler do in turn. -/
namespace DnsServer
open Memory
variable {Time : Type}

/-- What either handler's parser makes of an outcome of `recvfrom`. -/
def parseRecieved (buffer : Bytes) (datagram : Option Bytes) (stale : Message) :
    Option (UInt8 × Option Message) :=
  let (messageLen, buffer) := recieveMessage buffer datagram
  parseMessage buffer (some stale) messageLen

/-- The parser reads only the buffer, and the server refuses what an error leaves there. -/
structure QueryTurnSafe (server : Server) (coms : Coms) (buffer : Bytes) (datagram : Option Bytes)
    (dnsQuery : Message) (reply : Bytes) : Prop where
  inside : (parseRecieved buffer datagram dnsQuery).isSome
  ignored : datagram = none →
    recieveRequest server coms (recieveMessage buffer datagram).2 (recieveMessage buffer datagram).1
      dnsQuery reply = some (1, [])

/-- The turn reads only the buffer, and no message is parsed after an error. -/
structure ResponseTurnSafe (handler : ResponseHandler Time) (datagram : Option Bytes) (elapsedTime : Time) :
    Prop where
  inside : (dnsResponseHandler handler datagram elapsedTime).isSome
  ignored : datagram = none →
    ∀ message, parseRecieved handler.buffer datagram handler.dnsMessage ≠ some (0, some message)

/-- A datagram has come, and one that fills the buffer has a zero byte after its header. -/
def Bounded (datagram : Option Bytes) : Prop :=
  ∃ bytes, datagram = some bytes ∧
    (maxDnsBytes ≤ bytes.length → 0 ∈ (bytes.take maxDnsBytes).drop Header.size)

theorem charCount_lt (counted : charCount block limit = some k) : k < block.length := by
  induction block generalizing limit k with
  | nil => cases counted
  | cons b rest ih =>
    rw [charCount] at counted
    split at counted
    · obtain ⟨j, rest, rfl⟩ := Option.map_eq_some_iff.mp counted
      exact Nat.succ_lt_succ (ih rest)
    · cases counted
      exact Nat.succ_pos _

/-- The length 255 that an error gives: the buffer's bytes are a message, or the parser runs past them. -/
theorem parse_after_error (size : buffer.length = maxDnsBytes) (stale : Message)
    (returned : parseRecieved buffer none stale = some (code, message)) :
    code = 0 ∧ message.isSome := by
  change parseMessage buffer (some stale) 255 = _ at returned
  rw [parseMessage, if_neg (by decide)] at returned
  simp only [Option.bind_eq_bind, Option.bind_eq_some_iff] at returned
  obtain ⟨_, _, _, _, k, counted, returned⟩ := returned
  have inside := charCount_lt counted
  rw [List.length_drop, size] at inside
  simp only [maxDnsBytes] at inside
  have long : ¬ k + 4 > (255 : UInt8).toNat - 12 := by
    change ¬ k + 4 > 243
    omega
  rw [if_neg long] at returned
  simp only [Option.bind_eq_some_iff, Option.pure_def, Option.some.injEq, Prod.mk.injEq] at returned
  obtain ⟨_, _, _, _, _, _, rfl, rfl⟩ := returned
  exact ⟨rfl, rfl⟩

/-- Bytes that do not fill the buffer, or that end a name in it, are parsed inside it. -/
theorem parse_datagram (size : buffer.length = maxDnsBytes) (bytes : Bytes) (stale : Message) :
    (parseRecieved buffer (some bytes) stale).isSome ↔ Bounded (some bytes) := by
  have meaning : Bounded (some bytes) ↔
      (maxDnsBytes ≤ bytes.length → 0 ∈ (bytes.take maxDnsBytes).drop Header.size) := by
    simp [Bounded]
  rw [meaning, parseRecieved, recieveMessage, size]
  by_cases full : maxDnsBytes ≤ bytes.length
  · have taken : (bytes.take maxDnsBytes).length = maxDnsBytes := List.length_take_of_le full
    generalize bytes.take maxDnsBytes = message at taken
    have none : buffer.drop message.length = [] := List.drop_of_length_le (by omega)
    have counted : message.length = (UInt8.ofNat message.length).toNat := by
      rw [taken]
      rfl
    have long : Header.size ≤ message.length := by
      rw [taken]
      decide
    simp only [none, full, true_implies]
    obtain ⟨first, header, made, ⟨name, tail, rfl, clean⟩ | ⟨name, rfl, clean⟩⟩ := message_parts long
    · have twelve := Header.length_of_ofBytes made
      rw [← twelve, List.drop_left]
      refine iff_of_true ?_ (by simp)
      rcases parseMessage_ended made clean counted stale with ⟨_, _, _, _, _, parsed⟩ | ⟨_, parsed⟩
      · rw [parsed]
        rfl
      · rw [parsed]
        rfl
    · have twelve := Header.length_of_ofBytes made
      rw [parseMessage_endless made clean counted stale, if_pos rfl, ← twelve, List.drop_left]
      exact iff_of_false (by simp) clean
  · have short : (bytes.take maxDnsBytes).length < maxDnsBytes := by
      rw [List.length_take]
      omega
    refine iff_of_true ?_ fun long => absurd long full
    apply parseMessage_returns
    simp only [List.length_append, List.length_drop, size, UInt8.toNat_ofNat']
    simp only [maxDnsBytes] at short ⊢
    omega

theorem recieveRequest_of_parsed (server : Server) (coms : Coms) (reply : Bytes)
    (parsed : parseMessage message (some dnsQuery) n = some (0, some query)) :
    recieveRequest server coms message n dnsQuery reply ≠ some (1, []) := by
  simp only [recieveRequest, parsed, Option.bind_eq_bind, Option.bind_some]
  split
  · simp
  · split
    all_goals simp [Option.bind_eq_some_iff]

/-- The parser leaves a message in the struct it is given, also where it fails. -/
theorem parseMessage_leaves (returned : parseMessage buffer (some stale) n = some (code, message)) :
    message.isSome := by
  rw [parseMessage] at returned
  split at returned
  · cases returned
    rfl
  · simp only [Option.bind_eq_bind, Option.bind_eq_some_iff] at returned
    obtain ⟨_, _, _, _, k, _, returned⟩ := returned
    split at returned
    · cases returned
      rfl
    · simp only [Option.bind_eq_some_iff, Option.pure_def, Option.some.injEq, Prod.mk.injEq] at returned
      obtain ⟨_, _, _, _, _, _, _, rfl⟩ := returned
      rfl

theorem dnsResponseHandler_isSome (handler : ResponseHandler Time) (datagram : Option Bytes) (elapsedTime : Time) :
    (dnsResponseHandler handler datagram elapsedTime).isSome ↔
      (parseRecieved handler.buffer datagram handler.dnsMessage).isSome := by
  simp only [dnsResponseHandler, parseRecieved]
  generalize parsed : parseMessage (recieveMessage handler.buffer datagram).2 (some handler.dnsMessage)
    (recieveMessage handler.buffer datagram).1 = result
  cases result with
  | none => rfl
  | some pair =>
    obtain ⟨code, message⟩ := pair
    obtain ⟨message, rfl⟩ := Option.isSome_iff_exists.mp (parseMessage_leaves parsed)
    rfl

/-- Either handler's turn is safe exactly when a datagram has come that does not fill the buffer or has a zero
byte after its header: an error becomes the length 255, for which the old bytes are parsed. -/
theorem turn_safe_iff (server : Server) (coms : Coms) (buffer : Bytes) (datagram : Option Bytes)
    (dnsQuery : Message) (reply : Bytes) (handler : ResponseHandler Time) (elapsedTime : Time)
    (size : buffer.length = maxDnsBytes) (size' : handler.buffer.length = maxDnsBytes) :
    (QueryTurnSafe server coms buffer datagram dnsQuery reply ↔ Bounded datagram) ∧
      (ResponseTurnSafe handler datagram elapsedTime ↔ Bounded datagram) := by
  cases datagram with
  | none =>
    have failed : ¬ Bounded none := by
      rintro ⟨_, ⟨⟩, _⟩
    constructor
    · refine iff_of_false (fun safe => ?_) failed
      obtain ⟨⟨code, message⟩, returned⟩ := Option.isSome_iff_exists.mp safe.inside
      obtain ⟨rfl, accepted⟩ := parse_after_error size dnsQuery returned
      obtain ⟨query, rfl⟩ := Option.isSome_iff_exists.mp accepted
      have parsed : parseMessage buffer (some dnsQuery) 255 = some (0, some query) := returned
      exact recieveRequest_of_parsed server coms reply parsed (safe.ignored rfl)
    · refine iff_of_false (fun safe => ?_) failed
      obtain ⟨⟨code, message⟩, returned⟩ :=
        Option.isSome_iff_exists.mp ((dnsResponseHandler_isSome handler none elapsedTime).mp safe.inside)
      obtain ⟨rfl, accepted⟩ := parse_after_error size' handler.dnsMessage returned
      obtain ⟨answer, rfl⟩ := Option.isSome_iff_exists.mp accepted
      exact safe.ignored rfl answer returned
  | some bytes =>
    constructor
    · rw [← parse_datagram size bytes dnsQuery]
      exact ⟨QueryTurnSafe.inside, fun inside => ⟨inside, by rintro ⟨⟩⟩⟩
    · rw [← parse_datagram size' bytes handler.dnsMessage, ← dnsResponseHandler_isSome handler _ elapsedTime]
      exact ⟨ResponseTurnSafe.inside, fun inside => ⟨inside, by rintro ⟨⟩⟩⟩

def blankBuffer : Bytes := List.replicate 64 0

def idleHandler : ResponseHandler Nat := ⟨rootQuestion, blankBuffer, ⟨[], []⟩⟩

theorem turn_safe_short :
    (QueryTurnSafe (createDnsServer [] 0 1050 1053) (emptyComs 0) blankBuffer (some [7]) rootQuestion
        blankBuffer ↔ Bounded (some [7])) ∧
      (ResponseTurnSafe idleHandler (some [7]) 9 ↔ Bounded (some [7])) :=
  turn_safe_iff (createDnsServer [] 0 1050 1053) (emptyComs 0) blankBuffer (some [7]) rootQuestion blankBuffer
    idleHandler 9 rfl rfl

/-- After an error the server accepts the zero bytes of its buffer; a full datagram without a zero byte
is read past its end. -/
theorem turns_unsafe :
    ¬ QueryTurnSafe (createDnsServer [] 0 1050 1053) (emptyComs 0) blankBuffer none rootQuestion blankBuffer ∧
      ¬ ResponseTurnSafe idleHandler (some (List.replicate 64 7)) 9 := by
  constructor
  · intro safe
    have ignored := safe.ignored rfl
    revert ignored
    decide
  · intro safe
    have inside := safe.inside
    revert inside
    decide

end DnsServer
