import CallBridge.Proofs.NativeTypes

/-!
# Tagged values as bytes and as numbers

A tagged value is a union of a 32-bit integer or address, a 64-bit integer and a double, with a tag
beside it. Its memory form and the value determine each other, the four bytes at the end apart, and
the readings are readings of the same eight bytes, most significant first (`Tagged.OneUnion`): the
word is the high half of the double word, whichever of them was written.
-/

namespace CallBridge

namespace Tagged

/-! ## Memory form -/

theorem bytes_ofBytes {block : List Byte} (h : block.length = taggedSize) :
    (ofBytes block).bytes = block.take 12 ++ List.replicate 4 0 := by
  have hsplit : block.take (8 + 4) = block.take 8 ++ (block.drop 8).take 4 := List.take_add
  have hdata : (block.take 8).length = 8 := by simp [h, taggedSize]
  have htag : ((block.drop 8).take 4).length = 4 := by simp [h, taggedSize]
  rw [bytes, ofBytes, bytesOf_toNat_ofNat hdata rfl, bytesOf_toNat_ofNat htag rfl,
    ← List.append_assoc, ← hsplit]
  rfl

theorem bytes_injective : Function.Injective bytes :=
  Function.LeftInverse.injective ofBytes_bytes

theorem take_bytes (v : Tagged) : v.bytes.take 8 = bytesOf 8 v.data.toNat :=
  List.take_left' (length_bytesOf ..)

/-! ## Readings -/

theorem asInt32_eq (v : Tagged) : v.asInt32 = v.word.toInt := rfl

theorem toNat_word (v : Tagged) : v.word.toNat = v.data.toNat / 0x100000000 := by
  have hlt := v.data.isLt
  rw [word, BitVec.extractLsb'_toNat, Nat.shiftRight_eq_div_pow]
  omega

/-- The word is the high half of the integer, with its sign. -/
theorem toInt_word (v : Tagged) : v.word.toInt = v.data.toInt / 0x100000000 := by
  have hlt := v.data.isLt
  have hword := v.toNat_word
  simp only [BitVec.toInt_eq_toNat_cond]
  split <;> split <;> omega

theorem valueOf_take_four (v : Tagged) : valueOf (v.bytes.take 4) = v.word.toNat := by
  have hlt := v.data.isLt
  have hsplit : v.bytes.take 4 = bytesOf 4 (v.data.toNat / byteRange 4) := by
    rw [bytes, bytesOf_add 4 4, List.append_assoc]
    exact List.take_left' (length_bytesOf ..)
  rw [hsplit, valueOf_bytesOf, toNat_word]
  exact Nat.mod_eq_of_lt (Nat.div_lt_of_lt_mul hlt)

theorem valueOf_take_eight (v : Tagged) : valueOf (v.bytes.take 8) = v.data.toNat := by
  rw [take_bytes, valueOf_bytesOf]
  exact Nat.mod_eq_of_lt v.data.isLt

/-- All readings of a value read one union, whose bytes come first in its memory form. -/
structure OneUnion (v : Tagged) : Prop where
  high : v.asInt32 = v.asInt64 / 0x100000000
  sameBits : BitVec.ofInt 64 v.asInt64 = v.asFloat64
  wordBytes : BitVec.ofInt 32 v.asInt32 = BitVec.ofNat 32 (valueOf (v.bytes.take 4))
  doubleBytes : v.asFloat64 = BitVec.ofNat 64 (valueOf (v.bytes.take 8))

theorem oneUnion (v : Tagged) : v.OneUnion where
  high := v.toInt_word
  sameBits := BitVec.ofInt_toInt
  wordBytes := by
    rw [valueOf_take_four, BitVec.ofNat_toNat, BitVec.setWidth_eq, asInt32_eq, BitVec.ofInt_toInt]
  doubleBytes := by
    rw [valueOf_take_eight, BitVec.ofNat_toNat, BitVec.setWidth_eq]
    rfl

/-! ## What was made is read -/

theorem toNat_high (w : Word) : (high w).toNat = w.toNat * 0x100000000 := by
  have hlow : (0 : Word).toNat = 0 := rfl
  rw [high, BitVec.toNat_append, hlow, Nat.or_zero, Nat.shiftLeft_eq]

theorem extract_high (w : Word) : (high w).extractLsb' 32 32 = w := by
  apply BitVec.eq_of_toNat_eq
  have hlt := w.isLt
  rw [BitVec.extractLsb'_toNat, toNat_high, Nat.shiftRight_eq_div_pow]
  omega

/-- Read as a 64-bit integer, a word stands 32 bits higher and keeps its sign. -/
theorem toInt_high (w : Word) : (high w).toInt = w.toInt * 0x100000000 := by
  have hlt := w.isLt
  have hhigh := toNat_high w
  simp only [BitVec.toInt_eq_toNat_cond]
  split <;> split <;> omega

/-- A tagged value keeps every bit. Value and memory form determine each other, and whatever stood
in the last four bytes of a block, zeros stand there in the form of the value that is read from it;
each reading gives back what was put in, the bits of a double included; and all of them read one
union, in which a word is the high half of a 64-bit integer. -/
theorem keeps_every_bit :
    (∀ v : Tagged, ofBytes v.bytes = v) ∧
    (∀ block : List Byte, block.length = taggedSize →
      (ofBytes block).bytes = block.take 12 ++ List.replicate 4 0) ∧
    (∀ v w : Tagged, v = w ↔ v.bytes = w.bytes) ∧
    (∀ x : Word, (ofInt32 x).asInt32 = x.toInt ∧ (ofPointer x).asInt32 = x.toInt) ∧
    (∀ bits : DoubleWord, (ofInt64 bits).asInt64 = bits.toInt ∧ (ofFloat64 bits).asFloat64 = bits) ∧
    (∀ v : Tagged, v.OneUnion) ∧
    ∀ x : Word, (ofInt32 x).asInt64 = x.toInt * 0x100000000 ∧
      (ofPointer x).asInt64 % 0x10000000000000000 = x.toNat * 0x100000000 := by
  refine ⟨ofBytes_bytes, fun block => bytes_ofBytes, fun v w => bytes_injective.eq_iff.symm,
    fun x => ⟨?_, ?_⟩, fun bits => ⟨rfl, rfl⟩, oneUnion, fun x => ⟨toInt_high x, ?_⟩⟩
  · rw [asInt32, ofInt32, extract_high]
  · rw [asInt32, ofPointer, extract_high]
  · have hlt := x.isLt
    have hread : (ofPointer x).asInt64 = x.toInt * 0x100000000 := toInt_high x
    rw [hread, BitVec.toInt_eq_toNat_cond]
    split <;> omega

/-- A signalling NaN with a payload and the tag of a double, before four bytes that mean nothing. -/
def nanBlock : List Byte :=
  [0xff, 0xf4, 0x00, 0x00, 0xde, 0xad, 0xbe, 0xef, 0, 0, 0, 1, 0xcc, 0xcc, 0xcc, 0xcc]

theorem keeps_every_bit_nan :
    nanBlock.length = taggedSize ∧ (ofBytes nanBlock).bytes = nanBlock.take 12 ++ [0, 0, 0, 0] ∧
    ofBytes nanBlock = ofFloat64 0xfff40000deadbeef ∧
    (ofFloat64 0xfff40000deadbeef).asFloat64 = 0xfff40000deadbeef ∧
    (ofPointer 0x80001000).asInt32 = -0x7ffff000 ∧
    (ofPointer 0x80001000).asInt64 % 0x10000000000000000 = 0x8000100000000000 := by
  obtain ⟨-, hbytes, hinj, hword, hdouble, -, hhigh⟩ := keeps_every_bit
  have hblock := hbytes nanBlock rfl
  refine ⟨rfl, hblock, (hinj _ _).mpr ?_, (hdouble _).2, (hword _).2, (hhigh _).2⟩
  rw [hblock]
  decide

end Tagged

end CallBridge
