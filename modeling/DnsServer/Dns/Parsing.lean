import DnsServer.Dns.Message

/-! What the parser makes of a message at the start of a larger buffer: which messages it accepts,
where it reads each field, and that it reads nothing else. -/
namespace DnsServer
open Memory

/-- The name is the `k` bytes after the header. -/
structure NameEnds (message : Bytes) (k : Nat) : Prop where
  nonzero : ∀ i < k, message[Header.size + i]? ≠ some 0
  zero : message[Header.size + k]? = some 0

/-- The header, a name with its zero byte, and two bytes each for the type and the class. -/
def Complete (message : Bytes) : Prop :=
  Header.size ≤ message.length ∧ ∃ k, NameEnds message k ∧ Header.size + k + 1 + 4 ≤ message.length

/-- The last byte of the class is missing. -/
def OneShort (message : Bytes) : Prop :=
  ∃ k, NameEnds message k ∧ message.length = Header.size + k + 4

theorem nameEnds_iff : NameEnds message k ↔
    ∃ name tail, message.drop Header.size = name ++ 0 :: tail ∧ 0 ∉ name ∧ name.length = k := by
  constructor
  · intro ends
    have there : (message.drop Header.size)[k]? = some 0 := by
      rw [List.getElem?_drop]
      exact ends.zero
    obtain ⟨inside, zero⟩ := List.getElem?_eq_some_iff.mp there
    refine ⟨(message.drop Header.size).take k, (message.drop Header.size).drop (k + 1), ?_, ?_, ?_⟩
    · rw [← zero, ← List.drop_eq_getElem_cons inside, List.take_append_drop]
    · intro member
      obtain ⟨i, small, at_⟩ := List.mem_take_iff_getElem.mp member
      apply ends.nonzero i (lt_of_lt_of_le small (Nat.min_le_left _ _))
      rw [← List.getElem?_drop, List.getElem?_eq_getElem (lt_of_lt_of_le small (Nat.min_le_right _ _)), at_]
    · exact List.length_take_of_le inside.le
  · rintro ⟨name, tail, parts, clean, rfl⟩
    constructor
    · intro i before zero
      rw [← List.getElem?_drop, parts, List.getElem?_append_left before] at zero
      exact clean (List.mem_of_getElem? zero)
    · rw [← List.getElem?_drop, parts, List.getElem?_append_right (Nat.le_refl _), Nat.sub_self]
      rfl

theorem nameEnds_unique (ends : NameEnds message k) (parts : message.drop Header.size = name ++ 0 :: tail)
    (clean : 0 ∉ name) : k = name.length := by
  obtain ⟨name', tail', parts', clean', rfl⟩ := nameEnds_iff.mp ends
  rw [← cString_append_zero clean tail, ← parts, parts', cString_append_zero clean' tail']

/-- A message of at least a header: its name ends in it, or runs to its end. -/
theorem message_parts (long : Header.size ≤ message.length) :
    ∃ first header, Header.ofBytes first = some header ∧
      ((∃ name tail, message = first ++ (name ++ 0 :: tail) ∧ 0 ∉ name) ∨
        ∃ name, message = first ++ name ∧ 0 ∉ name) := by
  obtain ⟨header, made⟩ := Option.isSome_iff_exists.mp
    (Header.ofBytes_isSome (message.take Header.size) (List.length_take_of_le long))
  refine ⟨message.take Header.size, header, made, ?_⟩
  by_cases there : 0 ∈ message.drop Header.size
  · obtain ⟨name, tail, parts, clean⟩ := List.eq_append_cons_of_mem there
    exact .inl ⟨name, tail, by rw [← parts, List.take_append_drop], clean⟩
  · exact .inr ⟨message.drop Header.size, by rw [List.take_append_drop], there⟩

section
variable {message first name tail rest : Bytes} {header : Header} {n : UInt8}

/-- A name that ends in the message: two bytes and one more after it are enough. -/
theorem parseMessage_ended (made : Header.ofBytes first = some header) (clean : 0 ∉ name)
    (size : (first ++ (name ++ 0 :: tail)).length = n.toNat) (stale : Message) :
    (∃ lo hi more, tail = lo :: hi :: more ∧ more ≠ [] ∧
      ∀ rest, parseMessage (first ++ (name ++ 0 :: tail) ++ rest) (some stale) n =
        some (0, some ⟨header.flipHeaderEndian, ⟨name ++ [0], ntohs (word lo hi), ntohs (word lo hi)⟩⟩)) ∨
    tail.length < 3 ∧
      ∀ rest, parseMessage (first ++ (name ++ 0 :: tail) ++ rest) (some stale) n =
        some (3, some { stale with header := header.flipHeaderEndian }) := by
  have twelve := Header.length_of_ofBytes made
  simp only [List.length_append, List.length_cons, twelve, Header.size] at size
  by_cases room : 3 ≤ tail.length
  · left
    obtain ⟨lo, hi, last, more, rfl⟩ : ∃ lo hi last more, tail = lo :: hi :: last :: more := by
      rcases tail with _ | ⟨lo, _ | ⟨hi, _ | ⟨last, more⟩⟩⟩
      · simp at room
      · simp at room
      · simp at room
      · exact ⟨lo, hi, last, more, rfl⟩
    refine ⟨lo, hi, last :: more, rfl, List.cons_ne_nil _ _, fun rest => ?_⟩
    rw [List.append_assoc, List.append_assoc]
    simp only [List.length_cons] at size
    exact parseMessage_question made clean (by omega) stale lo hi _
  · right
    refine ⟨Nat.not_le.mp room, fun rest => ?_⟩
    rw [List.append_assoc, List.append_assoc]
    have counted := charCount_of_clean clean (show name.length ≤ n.toNat - 12 by omega) (tail ++ rest)
    exact parseMessage_cut made (by simp only [Header.size]; omega) counted (by omega) stale

/-- A name that runs to the end of the message: the byte after the message is looked at, and not counted. -/
theorem parseMessage_endless (made : Header.ofBytes first = some header) (clean : 0 ∉ name)
    (size : (first ++ name).length = n.toNat) (stale : Message) (rest : Bytes) :
    parseMessage (first ++ name ++ rest) (some stale) n =
      if rest = [] then none else some (3, some { stale with header := header.flipHeaderEndian }) := by
  have twelve := Header.length_of_ofBytes made
  simp only [List.length_append, twelve, Header.size] at size
  have limit : n.toNat - 12 = name.length := by omega
  have counted := charCount_of_full clean rest
  rw [← limit] at counted
  rw [List.append_assoc]
  split at counted
  · next none =>
    rw [if_pos none, parseMessage, if_neg (by simp only [Header.size]; omega)]
    have start := read_append [] first (name ++ rest)
    simp only [List.nil_append, List.length_nil, twelve] at start
    simp only [start, Option.bind_eq_bind, Option.bind_some, made]
    rw [← twelve, List.drop_left, counted]
    rfl
  · next more =>
    rw [if_neg more]
    refine parseMessage_cut made ?_ (by rw [counted, limit]) (by omega) stale
    simp only [Header.size]
    omega

end

/-- A name that ends four bytes before the end of the message, or earlier, is accepted. -/
theorem accepted_iff (message rest : Bytes) (n : UInt8) (size : message.length = n.toNat) (stale : Message) :
    (∃ parsed, parseMessage (message ++ rest) (some stale) n = some (0, some parsed)) ↔
      ∃ k, NameEnds message k ∧ Header.size + k + 4 ≤ message.length := by
  by_cases long : Header.size ≤ message.length
  · obtain ⟨first, header, made, ⟨name, tail, rfl, clean⟩ | ⟨name, rfl, clean⟩⟩ := message_parts long
    · have twelve := Header.length_of_ofBytes made
      have parts : (first ++ (name ++ 0 :: tail)).drop Header.size = name ++ 0 :: tail := by
        rw [← twelve, List.drop_left]
      have length : (first ++ (name ++ 0 :: tail)).length = Header.size + name.length + 1 + tail.length := by
        simp only [List.length_append, List.length_cons, twelve]
        omega
      have room : (∃ k, NameEnds (first ++ (name ++ 0 :: tail)) k ∧
          Header.size + k + 4 ≤ (first ++ (name ++ 0 :: tail)).length) ↔ 3 ≤ tail.length := by
        rw [length]
        constructor
        · rintro ⟨k, ends, room⟩
          rw [nameEnds_unique ends parts clean] at room
          omega
        · intro room
          exact ⟨name.length, nameEnds_iff.mpr ⟨name, tail, parts, clean, rfl⟩, by omega⟩
      rw [room]
      rcases parseMessage_ended made clean size stale with ⟨lo, hi, more, rfl, some, parsed⟩ | ⟨short, parsed⟩
      · have last := List.length_pos_iff.mpr some
        exact iff_of_true ⟨_, parsed rest⟩ (by simp only [List.length_cons]; omega)
      · rw [parsed rest]
        exact iff_of_false (by simp) (by omega)
    · have twelve := Header.length_of_ofBytes made
      rw [parseMessage_endless made clean size stale rest]
      apply iff_of_false
      · split <;> simp
      · rintro ⟨k, ends, _⟩
        have zero := ends.zero
        rw [← List.getElem?_drop, ← twelve, List.drop_left] at zero
        exact clean (List.mem_of_getElem? zero)
  · apply iff_of_false
    · rw [parseMessage, if_pos (by omega)]
      simp
    · rintro ⟨k, _, room⟩
      omega

/-- The parser accepts exactly the complete messages, but for those whose class lacks its last byte. -/
theorem accepts_complete_iff (message rest : Bytes) (n : UInt8) (size : message.length = n.toNat) (stale : Message) :
    ((∃ parsed, parseMessage (message ++ rest) (some stale) n = some (0, some parsed)) ↔ Complete message) ↔
      ¬ OneShort message := by
  rw [accepted_iff message rest n size stale]
  constructor
  · rintro same ⟨k, ends, room⟩
    obtain ⟨_, k', ends', room'⟩ := same.mp ⟨k, ends, room.ge⟩
    obtain ⟨name, tail, parts, clean, rfl⟩ := nameEnds_iff.mp ends
    rw [nameEnds_unique ends' parts clean] at room'
    omega
  · intro whole
    constructor
    · rintro ⟨k, ends, room⟩
      have more : message.length ≠ Header.size + k + 4 := fun short => whole ⟨k, ends, short⟩
      exact ⟨by omega, k, ends, by omega⟩
    · rintro ⟨_, k, ends, room⟩
      exact ⟨k, ends, by omega⟩

def noMessage : Message := ⟨⟨0, 0, 0, 0, 0, 0, 0, 0, 0, 0, 0, 0, 0⟩, ⟨[], 0, 0⟩⟩

/-- A question for the root whose class has one byte. -/
def shortRoot : Bytes := List.replicate 16 0

theorem accepts_complete_root :
    ((∃ parsed, parseMessage (shortRoot ++ [0] ++ []) (some noMessage) 17 = some (0, some parsed)) ↔
      Complete (shortRoot ++ [0])) ↔ ¬ OneShort (shortRoot ++ [0]) :=
  accepts_complete_iff (shortRoot ++ [0]) [] 17 rfl noMessage

theorem short_class_accepted :
    ¬ ((∃ parsed, parseMessage shortRoot (some noMessage) 16 = some (0, some parsed)) ↔ Complete shortRoot) := by
  intro same
  obtain ⟨_, k, ends, room⟩ := same.mp ⟨_, rfl⟩
  have length : shortRoot.length = 16 := rfl
  simp only [length, Header.size] at room
  omega

/-! Where the fields are read. -/

def byteAt (message : Bytes) (i : Nat) : Nat := (message.getD i 0).toNat

/-- Two bytes, the higher one first. -/
def wordAt (message : Bytes) (i : Nat) : Nat := 256 * byteAt message i + byteAt message (i + 1)

/-- The fields of the header in their order, those of a byte from its low end. -/
structure HeaderInPlace (message : Bytes) (h : Header) : Prop where
  id : h.id.toNat = wordAt message 0
  rd : h.rd.toNat = byteAt message 2 % 2
  tc : h.tc.toNat = byteAt message 2 / 2 % 2
  aa : h.aa.toNat = byteAt message 2 / 4 % 2
  opcode : h.opcode.toNat = byteAt message 2 / 8 % 16
  qr : h.qr.toNat = byteAt message 2 / 128
  rcode : h.rcode.toNat = byteAt message 3 % 16
  z : h.z.toNat = byteAt message 3 / 16 % 8
  ra : h.ra.toNat = byteAt message 3 / 128
  qdcount : h.qdcount.toNat = wordAt message 4
  ancount : h.ancount.toNat = wordAt message 6
  nscount : h.nscount.toNat = wordAt message 8
  arcount : h.arcount.toNat = wordAt message 10

/-- Every field has been read from its own place, the name being the `k` bytes after the header. -/
structure InPlace (message : Bytes) (k : Nat) (parsed : Message) : Prop where
  header : HeaderInPlace message parsed.header
  domain : cString parsed.question.domain = (message.drop Header.size).take k
  qtype : parsed.question.qtype.toNat = wordAt message (Header.size + k + 1)
  qclass : parsed.question.qclass.toNat = wordAt message (Header.size + k + 3)

theorem wordAt_append (before : Bytes) (lo hi : UInt8) (rest : Bytes) :
    wordAt (before ++ lo :: hi :: rest) before.length = 256 * lo.toNat + hi.toNat := by
  simp [wordAt, byteAt]

theorem toNat_ntohs_word (lo hi : UInt8) : (ntohs (word lo hi)).toNat = 256 * lo.toNat + hi.toNat := by
  rw [ntohs, hiByte_word, loByte_word, toNat_word, Nat.add_comm]

theorem header_in_place (made : Header.ofBytes first = some header) (rest : Bytes) :
    HeaderInPlace (first ++ rest) header.flipHeaderEndian := by
  unfold Header.ofBytes at made
  split at made
  · next i₀ i₁ flags codes q₀ q₁ a₀ a₁ n₀ n₁ r₀ r₁ =>
    cases made
    have bits : flags.toNat < 256 := flags.toNat_lt
    have bits' : codes.toNat < 256 := codes.toNat_lt
    constructor
    all_goals simp [Header.flipHeaderEndian, wordAt, byteAt, toNat_ntohs_word, Nat.shiftRight_eq_div_pow]
    all_goals omega
  · cases made

/-- A full question is read in place exactly when its class is its type: the class is read from the place
of the type. -/
theorem fields_in_place_iff (message rest : Bytes) (n : UInt8) (size : message.length = n.toNat) (stale : Message)
    (accepted : parseMessage (message ++ rest) (some stale) n = some (0, some parsed))
    (ends : NameEnds message k) (full : Header.size + k + 1 + 4 ≤ message.length) :
    InPlace message k parsed ↔
      wordAt message (Header.size + k + 1) = wordAt message (Header.size + k + 3) := by
  obtain ⟨name, tail, parts, clean, rfl⟩ := nameEnds_iff.mp ends
  obtain ⟨header, made⟩ := Option.isSome_iff_exists.mp
    (Header.ofBytes_isSome (message.take Header.size) (List.length_take_of_le (by omega)))
  have whole : message = message.take Header.size ++ (name ++ 0 :: tail) := by
    rw [← parts, List.take_append_drop]
  have twelve := Header.length_of_ofBytes made
  generalize message.take Header.size = first at made whole twelve
  subst whole
  have length : (first ++ (name ++ 0 :: tail)).length = Header.size + name.length + 1 + tail.length := by
    simp only [List.length_append, List.length_cons, twelve]
    omega
  rcases parseMessage_ended made clean size stale with ⟨lo, hi, more, rfl, some, parsed'⟩ | ⟨short, rejected⟩
  · cases accepted.symm.trans (parsed' rest)
    have type := wordAt_append (first ++ (name ++ [0])) lo hi more
    simp only [List.append_assoc, List.singleton_append, List.length_append, List.length_singleton, twelve,
      ← Nat.add_assoc] at type
    constructor
    · intro inPlace
      rw [← inPlace.qclass, ← inPlace.qtype]
    · intro same
      constructor
      · exact header_in_place made _
      · rw [parts, List.take_left]
        exact cString_append_zero clean []
      · rw [type]
        exact toNat_ntohs_word lo hi
      · rw [← same, type]
        exact toNat_ntohs_word lo hi
  · omega

/-- A question for the root whose type and class are below 256. -/
def rootOf (qtype qclass : UInt8) : Bytes := List.replicate 13 0 ++ [0, qtype, 0, qclass]

theorem rootOf_ends (qtype qclass : UInt8) : NameEnds (rootOf qtype qclass) 0 := ⟨by simp, rfl⟩

theorem fields_in_place_root : ∃ parsed,
    parseMessage (rootOf 1 1 ++ []) (some noMessage) 17 = some (0, some parsed) ∧
      (InPlace (rootOf 1 1) 0 parsed ↔ wordAt (rootOf 1 1) 13 = wordAt (rootOf 1 1) 15) :=
  ⟨_, rfl, fields_in_place_iff (rootOf 1 1) [] 17 rfl noMessage rfl (rootOf_ends 1 1) (by decide)⟩

theorem class_read_as_type : ∃ parsed,
    parseMessage (rootOf 1 2) (some noMessage) 17 = some (0, some parsed) ∧ Complete (rootOf 1 2) ∧
      ¬ InPlace (rootOf 1 2) 0 parsed := by
  refine ⟨_, rfl, ⟨by decide, 0, rootOf_ends 1 2, by decide⟩, ?_⟩
  intro inPlace
  have qclass := inPlace.qclass
  revert qclass
  decide

/-! The parser alone with the message: what the buffer holds after it is not used. -/

theorem parseMessage_returns (buffer : Bytes) (message : Option Message) (n : UInt8)
    (room : n.toNat < buffer.length) : (parseMessage buffer message n).isSome := by
  cases message with
  | none => rfl
  | some stale =>
    obtain ⟨front, rest, rfl, size⟩ : ∃ front rest, buffer = front ++ rest ∧ front.length = n.toNat :=
      ⟨buffer.take n.toNat, buffer.drop n.toNat, (List.take_append_drop _ _).symm, List.length_take_of_le room.le⟩
    by_cases long : Header.size ≤ front.length
    · obtain ⟨first, header, made, ⟨name, tail, rfl, clean⟩ | ⟨name, rfl, clean⟩⟩ := message_parts long
      · rcases parseMessage_ended made clean size stale with ⟨_, _, _, _, _, parsed⟩ | ⟨_, parsed⟩
        · rw [parsed]
          rfl
        · rw [parsed]
          rfl
      · rw [parseMessage_endless made clean size stale, if_neg]
        · rfl
        · rintro rfl
          simp [size] at room
    · rw [parseMessage, if_pos (by omega)]
      rfl

/-- The result is the message's own: what comes after it only decides whether a name without end is read past
the buffer. -/
theorem parseMessage_front (size : front.length = n.toNat) (stale : Message) :
    ∃ r, ∀ rest r', parseMessage (front ++ rest) (some stale) n = some r' → r' = r := by
  by_cases long : Header.size ≤ front.length
  · obtain ⟨first, header, made, ⟨name, tail, rfl, clean⟩ | ⟨name, rfl, clean⟩⟩ := message_parts long
    · rcases parseMessage_ended made clean size stale with ⟨_, _, _, _, _, parsed⟩ | ⟨_, parsed⟩
      · exact ⟨_, fun rest r' result => (Option.some.inj ((parsed rest).symm.trans result)).symm⟩
      · exact ⟨_, fun rest r' result => (Option.some.inj ((parsed rest).symm.trans result)).symm⟩
    · refine ⟨(3, some { stale with header := header.flipHeaderEndian }), fun rest r' result => ?_⟩
      rw [parseMessage_endless made clean size stale rest] at result
      split at result
      · cases result
      · exact (Option.some.inj result).symm
  · refine ⟨(2, some stale), fun rest r' result => ?_⟩
    rw [parseMessage, if_pos (by omega)] at result
    exact (Option.some.inj result).symm

/-- Parsing the same message in two buffers: the error code and the fields are the same, whatever comes
after it in either. -/
theorem parse_alone (a b : Bytes) (message : Option Message) (n : UInt8) (same : a.take n.toNat = b.take n.toNat) :
    (n.toNat < a.length → (parseMessage a message n).isSome) ∧
      ∀ r r₁, parseMessage a message n = some r → parseMessage b message n = some r₁ → r₁ = r := by
  refine ⟨parseMessage_returns a message n, fun r r₁ first second => ?_⟩
  cases message with
  | none =>
    cases first
    cases second
    rfl
  | some stale =>
    by_cases long : n.toNat ≤ a.length
    · obtain ⟨result, only⟩ := parseMessage_front (List.length_take_of_le long) stale
      rw [← List.take_append_drop n.toNat a] at first
      rw [← List.take_append_drop n.toNat b, ← same] at second
      rw [only _ _ first, only _ _ second]
    · have whole : a = b := by
        have lengths := congrArg List.length same
        simp only [List.length_take] at lengths
        rwa [List.take_of_length_le (by omega), List.take_of_length_le (by omega)] at same
      subst whole
      exact Option.some.inj (second.symm.trans first)

/-- The root's question before a free and before a used byte. -/
theorem parse_alone_root :
    (17 < (rootOf 1 1 ++ [0]).length → (parseMessage (rootOf 1 1 ++ [0]) (some noMessage) 17).isSome) ∧
      ∀ r r₁, parseMessage (rootOf 1 1 ++ [0]) (some noMessage) 17 = some r →
        parseMessage (rootOf 1 1 ++ [7]) (some noMessage) 17 = some r₁ → r₁ = r :=
  parse_alone (rootOf 1 1 ++ [0]) (rootOf 1 1 ++ [7]) (some noMessage) 17 rfl

end DnsServer
