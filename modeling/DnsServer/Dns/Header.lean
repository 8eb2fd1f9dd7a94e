import DnsServer.Memory.Buffer

/-! The message header as the bytes of its struct on a little-endian machine, whose
bit-fields fill each byte from its low end. -/
namespace DnsServer

abbrev Bytes := List UInt8

def loByte (w : UInt16) : UInt8 := w.toUInt8
def hiByte (w : UInt16) : UInt8 := (w / 256).toUInt8
def word (lo hi : UInt8) : UInt16 := lo.toUInt16 + 256 * hi.toUInt16

def htons (w : UInt16) : UInt16 := word (hiByte w) (loByte w)
def ntohs (w : UInt16) : UInt16 := word (hiByte w) (loByte w)

theorem toNat_loByte (w : UInt16) : (loByte w).toNat = w.toNat % 256 := by
  simp [loByte]

theorem toNat_hiByte (w : UInt16) : (hiByte w).toNat = w.toNat / 256 := by
  have bound := w.toNat_lt
  simp only [hiByte, UInt16.toNat_toUInt8, UInt16.toNat_div, UInt16.reduceToNat]
  omega

theorem toNat_word (lo hi : UInt8) : (word lo hi).toNat = lo.toNat + 256 * hi.toNat := by
  have low := lo.toNat_lt
  have high := hi.toNat_lt
  simp only [word, UInt16.toNat_add, UInt16.toNat_mul, UInt8.toNat_toUInt16, UInt16.reduceToNat]
  omega

@[simp] theorem word_bytes (w : UInt16) : word (loByte w) (hiByte w) = w := by
  apply UInt16.toNat_inj.mp
  rw [toNat_word, toNat_loByte, toNat_hiByte]
  omega

@[simp] theorem loByte_word (lo hi : UInt8) : loByte (word lo hi) = lo := by
  have bound := lo.toNat_lt
  apply UInt8.toNat_inj.mp
  rw [toNat_loByte, toNat_word]
  omega

@[simp] theorem hiByte_word (lo hi : UInt8) : hiByte (word lo hi) = hi := by
  have bound := lo.toNat_lt
  apply UInt8.toNat_inj.mp
  rw [toNat_hiByte, toNat_word]
  omega

@[simp] theorem ntohs_htons (w : UInt16) : ntohs (htons w) = w := by
  simp [ntohs, htons]

structure Header where
  id : UInt16
  rd : BitVec 1
  tc : BitVec 1
  aa : BitVec 1
  opcode : BitVec 4
  qr : BitVec 1
  rcode : BitVec 4
  z : BitVec 3
  ra : BitVec 1
  qdcount : UInt16
  ancount : UInt16
  nscount : UInt16
  arcount : UInt16
  deriving DecidableEq

namespace Header

/-- `sizeof(header_t)`. -/
def size : Nat := 12

def toBytes (h : Header) : Bytes :=
  [loByte h.id, hiByte h.id,
   ⟨h.qr ++ h.opcode ++ h.aa ++ h.tc ++ h.rd⟩, ⟨h.ra ++ h.z ++ h.rcode⟩,
   loByte h.qdcount, hiByte h.qdcount, loByte h.ancount, hiByte h.ancount,
   loByte h.nscount, hiByte h.nscount, loByte h.arcount, hiByte h.arcount]

def ofBytes : Bytes → Option Header
  | [i₀, i₁, flags, codes, q₀, q₁, a₀, a₁, n₀, n₁, r₀, r₁] =>
    some {
      id := word i₀ i₁
      rd := flags.toBitVec.extractLsb' 0 1
      tc := flags.toBitVec.extractLsb' 1 1
      aa := flags.toBitVec.extractLsb' 2 1
      opcode := flags.toBitVec.extractLsb' 3 4
      qr := flags.toBitVec.extractLsb' 7 1
      rcode := codes.toBitVec.extractLsb' 0 4
      z := codes.toBitVec.extractLsb' 4 3
      ra := codes.toBitVec.extractLsb' 7 1
      qdcount := word q₀ q₁
      ancount := word a₀ a₁
      nscount := word n₀ n₁
      arcount := word r₀ r₁ }
  | _ => none

@[simp] theorem length_toBytes (h : Header) : h.toBytes.length = size := rfl

theorem ofBytes_toBytes (h : Header) : ofBytes h.toBytes = some h := by
  simp only [toBytes, ofBytes, word_bytes]
  congr 1
  cases h
  simp only [Header.mk.injEq]
  refine ⟨trivial, ?_, ?_, ?_, ?_, ?_, ?_, ?_, ?_, trivial, trivial, trivial, trivial⟩ <;>
    ext i bound <;> simp <;> grind

/-- Every block of the struct's size is some header. -/
theorem ofBytes_isSome (bytes : Bytes) (full : bytes.length = size) : (ofBytes bytes).isSome := by
  match bytes, full with
  | [_, _, _, _, _, _, _, _, _, _, _, _], _ => rfl

theorem length_of_ofBytes (made : ofBytes bytes = some h) : bytes.length = size := by
  unfold ofBytes at made
  split at made
  · rfl
  · cases made

def flipHeaderEndian (h : Header) : Header :=
  { h with
    id := ntohs h.id
    qdcount := ntohs h.qdcount
    ancount := ntohs h.ancount
    nscount := ntohs h.nscount
    arcount := ntohs h.arcount }

end Header
end DnsServer
