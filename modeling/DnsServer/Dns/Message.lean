import DnsServer.Dns.Header

/-! Crafting and parsing of messages in the caller's buffer. `none` is an access
outside the buffer. -/
namespace DnsServer
open Memory

structure Question where
  /-- The bytes copied for the name, its terminator included. -/
  domain : Bytes
  qtype : UInt16
  qclass : UInt16
  deriving DecidableEq

structure Message where
  header : Header
  question : Question
  deriving DecidableEq

def craftHeader (query : Bool) (id : UInt16) (ip : Option Bytes) : Header where
  id := htons id
  qr := BitVec.ofBool !query
  opcode := 0
  aa := 0
  tc := 0
  rd := 1
  ra := 0
  z := 0
  rcode := if !query && ip.isNone then 0x3 else 0x0
  qdcount := 0x100
  ancount := 0
  nscount := 0
  arcount := 0

/-- The length of the message and the buffer that holds it. -/
def craftMessage (buffer : Bytes) (query : Bool) (id : UInt16) (domain : Bytes)
    (ip : Option Bytes) : Option (UInt8 × Bytes) := do
  let buffer ← write buffer 0 (craftHeader query id ip).toBytes
  let curr := Header.size
  let bytes : UInt8 := UInt8.ofNat Header.size
  let strlen := (cString domain).length
  let buffer ← write buffer curr (cString domain ++ [0])
  let curr := curr + (strlen + 1)
  let bytes := bytes + UInt8.ofNat (strlen + 1)
  -- Only the low byte of the type and of the class is stored.
  let buffer ← write buffer (curr + 1) [1]
  let buffer ← write buffer (curr + 3) [1]
  let bytes := bytes + 4
  return (bytes, buffer)

/-- `char_cnt` after the loop over the name: at a NUL, or after `limit` bytes. -/
def charCount : Bytes → Nat → Option Nat
  | [], _ => none
  | b :: rest, limit =>
    if b ≠ 0 ∧ 0 < limit then (charCount rest (limit - 1)).map (· + 1) else some 0

def readWord (block : Bytes) (i : Nat) : Option UInt16 := do
  match ← read block i 2 with
  | [lo, hi] => return word lo hi
  | _ => none

/-- The error code and what it leaves in `message`, whose `none` is the null pointer.
The class is read from the place of the type. -/
def parseMessage (buffer : Bytes) (message : Option Message) (messageBytes : UInt8) :
    Option (UInt8 × Option Message) :=
  match message with
  | none => some (1, none)
  | some message =>
    if messageBytes.toNat < Header.size then some (2, some message)
    else do
      let header := (← Header.ofBytes (← read buffer 0 Header.size)).flipHeaderEndian
      let buffer := buffer.drop Header.size
      let charCnt ← charCount buffer (messageBytes.toNat - 12)
      if charCnt + 4 > messageBytes.toNat - 12 then
        return (3, some { message with header })
      let domain ← read buffer 0 (charCnt + 1)
      let buffer := buffer.drop (charCnt + 1)
      let qtype := ntohs (← readWord buffer 0)
      let qclass := ntohs (← readWord buffer 0)
      return (0, some { header, question := { domain, qtype, qclass } })

/-! What crafting writes. -/

/-- The message overwrites its place in the buffer except two bytes of the question. -/
theorem craftMessage_layout (query : Bool) (id : UInt16) (ip : Option Bytes)
    (header : before.length = Header.size) (name : old.length = (cString domain).length + 1)
    (a b c d : UInt8) (rest : Bytes) :
    craftMessage (before ++ (old ++ (a :: b :: c :: d :: rest))) query id domain ip =
      some (UInt8.ofNat ((cString domain).length + 17),
        (craftHeader query id ip).toBytes ++
          (cString domain ++ 0 :: a :: 1 :: c :: 1 :: rest)) := by
  generalize stored : (craftHeader query id ip).toBytes = h
  have size : h.length = Header.size := by rw [← stored, Header.length_toBytes]
  have first := write_append [] (header.trans size.symm) (old ++ (a :: b :: c :: d :: rest))
  have second := write_append h (show old.length = (cString domain ++ [0]).length by simp [name])
    (a :: b :: c :: d :: rest)
  have third := write_append (h ++ (cString domain ++ [0, a])) (show [b].length = [1].length from rfl)
    (c :: d :: rest)
  have fourth := write_append (h ++ (cString domain ++ [0, a, 1, c]))
    (show [d].length = [1].length from rfl) rest
  simp only [List.nil_append, List.length_nil, List.append_assoc, List.cons_append,
    List.length_append, List.length_cons, size] at first second third fourth
  simp only [craftMessage, stored, Option.bind_eq_bind, first, Option.bind_some, second,
    Nat.add_assoc, Nat.reduceAdd, third, fourth, Option.pure_def]
  congr 2
  apply UInt8.toNat_inj.mp
  simp only [Header.size, UInt8.toNat_add, UInt8.toNat_ofNat', UInt8.reduceToNat]
  omega

/-- The two bytes that are not written stay as they were, whatever the buffer held. -/
theorem craftMessage_stale (buffer : Bytes) (query : Bool) (id : UInt16) (domain : Bytes)
    (ip : Option Bytes) (room : (cString domain).length + 17 ≤ buffer.length) :
    ∃ a c, buffer[(cString domain).length + 13]? = some a ∧ buffer[(cString domain).length + 15]? = some c ∧
      craftMessage buffer query id domain ip =
        some (UInt8.ofNat ((cString domain).length + 17),
          (craftHeader query id ip).toBytes ++
            (cString domain ++ 0 :: a :: 1 :: c :: 1 :: buffer.drop ((cString domain).length + 17))) := by
  let k := (cString domain).length
  have question : ((buffer.drop (k + 13)).take 4).length = 4 := by
    simp only [List.length_take, List.length_drop]
    omega
  match kinds : (buffer.drop (k + 13)).take 4, question with
  | [a, b, c, d], _ =>
    have tail : buffer.drop (k + 13) = a :: b :: c :: d :: buffer.drop (k + 17) := by
      rw [← List.take_append_drop 4 (buffer.drop (k + 13)), kinds, List.drop_drop]
      rfl
    have whole : buffer = buffer.take 12 ++ ((buffer.drop 12).take (k + 1) ++
        (a :: b :: c :: d :: buffer.drop (k + 17))) := by
      rw [← tail, show k + 13 = 12 + (k + 1) from by omega, ← List.drop_drop,
        List.take_append_drop, List.take_append_drop]
    have typeByte : buffer[k + 13]? = some a := by
      rw [← Nat.add_zero (k + 13), ← List.getElem?_drop, tail, List.getElem?_cons_zero]
    have classByte : buffer[k + 15]? = some c := by
      rw [show k + 15 = k + 13 + 2 from rfl, ← List.getElem?_drop, tail]
      rfl
    refine ⟨a, c, typeByte, classByte, ?_⟩
    have first : (buffer.take 12).length = Header.size := by
      simp only [List.length_take, Header.size]
      omega
    have name : ((buffer.drop 12).take (k + 1)).length = (cString domain).length + 1 := by
      simp only [List.length_take, List.length_drop]
      omega
    have written := craftMessage_layout query id ip first name a b c d (buffer.drop (k + 17))
    rwa [← whole] at written

theorem exists_craftMessage (buffer : Bytes) (query : Bool) (id : UInt16) (domain : Bytes)
    (ip : Option Bytes) (room : (cString domain).length + 17 ≤ buffer.length) :
    ∃ a c rest, craftMessage buffer query id domain ip =
      some (UInt8.ofNat ((cString domain).length + 17),
        (craftHeader query id ip).toBytes ++ (cString domain ++ 0 :: a :: 1 :: c :: 1 :: rest)) := by
  obtain ⟨a, c, _, _, crafted⟩ := craftMessage_stale buffer query id domain ip room
  exact ⟨a, c, _, crafted⟩

theorem craftMessage_isSome_iff (buffer : Bytes) (query : Bool) (id : UInt16) (domain : Bytes)
    (ip : Option Bytes) : (craftMessage buffer query id domain ip).isSome ↔
      (cString domain).length + 17 ≤ buffer.length := by
  constructor
  · intro crafted
    simp only [craftMessage, Option.bind_eq_bind, Option.isSome_iff_exists,
      Option.bind_eq_some_iff] at crafted
    obtain ⟨_, b₁, first, b₂, second, b₃, third, b₄, fourth, _⟩ := crafted
    have same : b₃.length = buffer.length := by
      rw [length_write third, length_write second, length_write first]
    have last := (write_isSome_iff b₃ _ [1]).mp (by rw [fourth]; rfl)
    simp only [Header.size, List.length_singleton] at last
    omega
  · intro room
    obtain ⟨_, _, _, crafted⟩ := exists_craftMessage buffer query id domain ip room
    rw [crafted]
    rfl

theorem craftMessage_lengths {id : UInt16}
    (crafted : craftMessage buffer query id domain ip = some (bytes, written)) :
    bytes = UInt8.ofNat ((cString domain).length + 17) ∧ written.length = buffer.length := by
  simp only [craftMessage, Option.bind_eq_bind, Option.bind_eq_some_iff, Option.pure_def,
    Option.some.injEq, Prod.mk.injEq] at crafted
  obtain ⟨b₁, first, b₂, second, b₃, third, b₄, fourth, rfl, rfl⟩ := crafted
  constructor
  · apply UInt8.toNat_inj.mp
    simp only [Header.size, UInt8.toNat_add, UInt8.toNat_ofNat', UInt8.reduceToNat]
    omega
  · rw [length_write fourth, length_write third, length_write second, length_write first]

/-! What parsing reads. -/

theorem charCount_spec (counted : charCount block limit = some k) :
    k ≤ limit ∧ 0 ∉ block.take k ∧ (k < limit → block[k]? = some 0) := by
  induction block generalizing limit k with
  | nil => cases counted
  | cons b rest ih =>
    rw [charCount] at counted
    split at counted
    · next going =>
      obtain ⟨j, rest, rfl⟩ := Option.map_eq_some_iff.mp counted
      obtain ⟨bound, clean, stops⟩ := ih rest
      refine ⟨by omega, ?_, ?_⟩
      · rw [List.take_succ_cons, List.mem_cons, not_or]
        exact ⟨going.1.symm, clean⟩
      · intro before
        rw [List.getElem?_cons_succ]
        exact stops (by omega)
    · next stopped =>
      cases counted
      refine ⟨Nat.zero_le _, by simp, ?_⟩
      intro positive
      rw [List.getElem?_cons_zero]
      simp only [positive, and_true, ne_eq, not_not] at stopped
      rw [stopped]

theorem charCount_of_clean (clean : 0 ∉ name) (bound : name.length ≤ limit) (rest : Bytes) :
    charCount (name ++ 0 :: rest) limit = some name.length := by
  induction name generalizing limit with
  | nil => simp [charCount]
  | cons b name ih =>
    obtain ⟨nonzero, clean⟩ := not_or.mp (List.mem_cons.not.mp clean)
    rw [List.length_cons] at bound
    rw [List.cons_append, charCount, if_pos ⟨Ne.symm nonzero, by omega⟩, ih clean (by omega)]
    rfl

/-- Without a NUL the count goes on to the limit, and the byte there is read too. -/
theorem charCount_of_full (clean : 0 ∉ name) (rest : Bytes) :
    charCount (name ++ rest) name.length = if rest = [] then none else some name.length := by
  induction name with
  | nil => cases rest <;> simp [charCount]
  | cons b name ih =>
    obtain ⟨nonzero, clean⟩ := not_or.mp (List.mem_cons.not.mp clean)
    rw [List.cons_append, charCount, List.length_cons, if_pos ⟨Ne.symm nonzero, Nat.succ_pos _⟩,
      Nat.add_sub_cancel, ih clean]
    split <;> rfl

/-- An accepted name ends at a NUL at least four bytes before the end of the message. -/
theorem parseMessage_accepted
    (accepted : parseMessage buffer (some stale) n = some (0, some message)) :
    ∃ k, k + 16 ≤ n.toNat ∧ 0 ∉ (buffer.drop 12).take k ∧ (buffer.drop 12)[k]? = some 0 ∧
      message.question.domain = (buffer.drop 12).take (k + 1) := by
  rw [parseMessage] at accepted
  split at accepted
  · simp at accepted
  · simp only [Option.bind_eq_bind, Option.bind_eq_some_iff] at accepted
    obtain ⟨_, _, _, _, k, counted, accepted⟩ := accepted
    split at accepted
    · simp at accepted
    · next room =>
      simp only [Option.bind_eq_some_iff, Option.pure_def, Option.some.injEq, Prod.mk.injEq,
        true_and] at accepted
      obtain ⟨domain, copied, _, _, _, _, rfl⟩ := accepted
      obtain ⟨_, clean, stops⟩ := charCount_spec counted
      refine ⟨k, by omega, clean, stops (by omega), ?_⟩
      simp only [Memory.read, Nat.zero_add, List.drop_zero] at copied
      split at copied
      · exact (Option.some.inj copied).symm
      · cases copied

/-- A name with its zero byte and two bytes more: whatever comes after them is not looked at. -/
theorem parseMessage_question (made : Header.ofBytes first = some header) (clean : 0 ∉ name)
    (bound : name.length + 16 ≤ n.toNat) (stale : Message) (lo hi : UInt8) (rest : Bytes) :
    parseMessage (first ++ (name ++ 0 :: lo :: hi :: rest)) (some stale) n =
      some (0, some ⟨header.flipHeaderEndian, ⟨name ++ [0], ntohs (word lo hi), ntohs (word lo hi)⟩⟩) := by
  have size := Header.length_of_ofBytes made
  have start := read_append [] first (name ++ 0 :: lo :: hi :: rest)
  have copied := read_append [] (name ++ [0]) (lo :: hi :: rest)
  simp only [List.nil_append, List.length_nil, size, List.append_assoc,
    List.cons_append, List.length_append, List.length_singleton] at start copied
  rw [parseMessage, if_neg (by simp only [Header.size]; omega)]
  simp only [start, Option.bind_eq_bind, Option.bind_some, made]
  rw [← size, List.drop_left]
  simp only [charCount_of_clean clean (show name.length ≤ n.toNat - 12 by omega), Option.bind_some]
  rw [if_neg (by omega)]
  have kind : (name ++ 0 :: lo :: hi :: rest).drop (name.length + 1) = lo :: hi :: rest := by
    simp
  have two : readWord (lo :: hi :: rest) 0 = some (word lo hi) := by simp [readWord, Memory.read]
  simp only [copied, kind, two, Option.bind_some, Option.pure_def]

theorem parseMessage_layout (header : Header) (clean : 0 ∉ name) (bound : name.length + 16 ≤ n.toNat)
    (stale : Message) (lo hi : UInt8) (rest : Bytes) :
    parseMessage (header.toBytes ++ (name ++ 0 :: lo :: hi :: rest)) (some stale) n =
      some (0, some ⟨header.flipHeaderEndian, ⟨name ++ [0], ntohs (word lo hi), ntohs (word lo hi)⟩⟩) :=
  parseMessage_question (Header.ofBytes_toBytes header) clean bound stale lo hi rest

/-- A name that ends too near to the end of the message, or not before it. -/
theorem parseMessage_cut (made : Header.ofBytes first = some header) (long : Header.size ≤ n.toNat)
    (counted : charCount rest (n.toNat - 12) = some k) (short : n.toNat < k + 16) (stale : Message) :
    parseMessage (first ++ rest) (some stale) n =
      some (3, some { stale with header := header.flipHeaderEndian }) := by
  have size := Header.length_of_ofBytes made
  have start := read_append [] first rest
  simp only [List.nil_append, List.length_nil, size] at start
  rw [parseMessage, if_neg (Nat.not_lt.mpr long)]
  simp only [start, Option.bind_eq_bind, Option.bind_some, made]
  rw [← size, List.drop_left]
  simp only [counted, Option.bind_some]
  rw [if_pos (by simp only [Header.size] at long; omega)]
  rfl

end DnsServer
