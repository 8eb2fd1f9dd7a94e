import DnsServer.Dns.Server

/-! What a crafted message is to those who read it: parsing gives back what was crafted, and two
bytes of the question are those that the buffer held before. -/
namespace DnsServer
open Memory

/-- The header that parsing gives for a crafted message. -/
def craftedHeader (query : Bool) (id : UInt16) (ip : Option Bytes) : Header where
  id := id
  qr := BitVec.ofBool !query
  opcode := 0
  aa := 0
  tc := 0
  rd := 1
  ra := 0
  z := 0
  rcode := if !query ∧ ip = none then 3 else 0
  qdcount := 1
  ancount := 0
  nscount := 0
  arcount := 0

theorem flip_craftHeader (query : Bool) (id : UInt16) (ip : Option Bytes) :
    (craftHeader query id ip).flipHeaderEndian = craftedHeader query id ip := by
  have counted : ntohs 0x100 = 1 := by decide
  have zero : ntohs 0 = 0 := by decide
  cases query <;> cases ip <;>
    simp [craftHeader, craftedHeader, Header.flipHeaderEndian, counted, zero]

/-- Parsing undoes crafting, for every name that the buffer has room for and whatever it held before. -/
theorem parse_undoes_craft (query : Bool) (id : UInt16) (ip : Option Bytes) (stale : Message)
    (clean : 0 ∉ domain) (short : domain.length ≤ 47) (size : buffer.length = maxDnsBytes) :
    ∃ n written message, craftMessage buffer query id domain ip = some (n, written) ∧
      parseMessage written (some stale) n = some (0, some message) ∧
      message.header = craftedHeader query id ip ∧ message.question.domain = domain ++ [0] := by
  have name : cString domain = domain := cString_of_clean clean
  obtain ⟨a, c, rest, crafted⟩ := exists_craftMessage buffer query id domain ip
    (by rw [name, size]; simp only [maxDnsBytes]; omega)
  rw [name] at crafted
  have count : (UInt8.ofNat (domain.length + 17)).toNat = domain.length + 17 := by
    rw [UInt8.toNat_ofNat']
    omega
  have parsed := parseMessage_layout (craftHeader query id ip) clean
    (show _ ≤ (UInt8.ofNat (domain.length + 17)).toNat by omega) stale a 1 (c :: 1 :: rest)
  exact ⟨_, _, _, crafted, parsed, flip_craftHeader query id ip, rfl⟩

theorem parse_undoes_craft_answer :
    ∃ n written message,
      craftMessage (List.replicate 64 0) false 7 [97, 98] (some [49]) = some (n, written) ∧
      parseMessage written (some rootQuestion) n = some (0, some message) ∧
      message.header = craftedHeader false 7 (some [49]) ∧ message.question.domain = [97, 98] ++ [0] :=
  parse_undoes_craft false 7 (some [49]) rootQuestion (by decide) (by decide) (by decide)

/-! What is sent of a message. -/

/-- The bytes that are handed over for sending: as many as the length says. -/
def sentMessage (buffer : Bytes) (query : Bool) (id : UInt16) (domain : Bytes) (ip : Option Bytes) :
    Option Bytes :=
  (craftMessage buffer query id domain ip).map fun crafted => crafted.2.take crafted.1.toNat

/-- What the buffer held in the high byte of the type and in that of the class. -/
def staleBytes (domain buffer : Bytes) : List (Option UInt8) :=
  [buffer[domain.length + 13]?, buffer[domain.length + 15]?]

/-- The question, after the header and the name, has type 1 and class 1. -/
def AsksInternet (domain message : Bytes) : Prop := message.drop (domain.length + 13) = [0, 1, 0, 1]

theorem sentMessage_stale (query : Bool) (id : UInt16) (ip : Option Bytes)
    (clean : 0 ∉ domain) (short : domain.length ≤ 47) (size : buffer.length = maxDnsBytes) :
    ∃ a c, staleBytes domain buffer = [some a, some c] ∧
      sentMessage buffer query id domain ip =
        some ((craftHeader query id ip).toBytes ++ (domain ++ [0, a, 1, c, 1])) := by
  obtain ⟨a, c, typeByte, classByte, crafted⟩ := craftMessage_stale buffer query id domain ip
    (by rw [cString_of_clean clean, size]; simp only [maxDnsBytes]; omega)
  rw [cString_of_clean clean] at typeByte classByte crafted
  refine ⟨a, c, by rw [staleBytes, typeByte, classByte], ?_⟩
  let sent := (craftHeader query id ip).toBytes ++ (domain ++ [0, a, 1, c, 1])
  have count : (UInt8.ofNat (domain.length + 17)).toNat = sent.length := by
    rw [UInt8.toNat_ofNat']
    simp only [sent, List.length_append, Header.length_toBytes, Header.size, List.length_cons, List.length_nil]
    omega
  have whole : (craftHeader query id ip).toBytes ++
      (domain ++ 0 :: a :: 1 :: c :: 1 :: buffer.drop (domain.length + 17)) =
      sent ++ buffer.drop (domain.length + 17) := by
    simp [sent]
  rw [sentMessage, crafted, Option.map_some, count, whole, List.take_left]

/-- Two messages differ exactly when the old contents of the two bytes do. -/
theorem sentMessage_same_iff (query : Bool) (id : UInt16) (ip : Option Bytes)
    (clean : 0 ∉ domain) (short : domain.length ≤ 47) (size : buffer.length = maxDnsBytes)
    (size₁ : buffer₁.length = maxDnsBytes) :
    sentMessage buffer query id domain ip = sentMessage buffer₁ query id domain ip ↔
      staleBytes domain buffer = staleBytes domain buffer₁ := by
  obtain ⟨a, c, stale, sent⟩ := sentMessage_stale query id ip clean short size
  obtain ⟨a₁, c₁, stale₁, sent₁⟩ := sentMessage_stale query id ip clean short size₁
  rw [stale, stale₁, sent, sent₁]
  simp

theorem sentMessage_asks_iff {id : UInt16} (clean : 0 ∉ domain) (short : domain.length ≤ 47)
    (size : buffer.length = maxDnsBytes) (sent : sentMessage buffer query id domain ip = some message) :
    AsksInternet domain message ↔ staleBytes domain buffer = [some 0, some 0] := by
  obtain ⟨a, c, stale, sent₁⟩ := sentMessage_stale query id ip clean short size
  obtain rfl := Option.some.inj (sent.symm.trans sent₁)
  rw [stale, AsksInternet, show domain.length + 13 = Header.size + (domain.length + 1) by
      simp only [Header.size]; omega, ← List.drop_drop, ← Header.length_toBytes (craftHeader query id ip),
    List.drop_left, ← List.drop_drop, List.drop_left]
  simp

end DnsServer
