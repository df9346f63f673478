/-!
# Big-endian bytes

Machine words, and numbers as runs of bytes with the most significant byte first. `bytesOf` and
`valueOf` undo each other: a number that fits comes back unchanged, and so does every run of bytes.
-/

namespace CallBridge

abbrev Byte := BitVec 8

/-- A 32-bit machine word; also an address. -/
abbrev Word := BitVec 32

/-- The bits of a double-precision number, or of a 64-bit integer. -/
abbrev DoubleWord := BitVec 64

/-- The number of values that `count` bytes can hold. -/
def byteRange : (count : Nat) → Nat
  | 0 => 1
  | count + 1 => 256 * byteRange count

/-- The low `count` bytes of a number, most significant first. -/
def bytesOf : (count value : Nat) → List Byte
  | 0, _ => []
  | count + 1, value => BitVec.ofNat 8 (value / byteRange count) :: bytesOf count value

/-- The number that a run of bytes spells, most significant first. -/
def valueOf : List Byte → Nat
  | [] => 0
  | b :: bytes => b.toNat * byteRange bytes.length + valueOf bytes

def Word.bytes (w : Word) : List Byte :=
  bytesOf 4 w.toNat

theorem byteRange_pos (count : Nat) : 0 < byteRange count := by
  induction count with
  | zero => exact Nat.one_pos
  | succ count ih => exact Nat.mul_pos (by decide) ih

@[simp]
theorem length_bytesOf (count value : Nat) : (bytesOf count value).length = count := by
  induction count with
  | zero => rfl
  | succ count ih => simp [bytesOf, ih]

theorem valueOf_lt (bytes : List Byte) : valueOf bytes < byteRange bytes.length := by
  induction bytes with
  | nil => exact Nat.one_pos
  | cons b bytes ih =>
    have hb : b.toNat ≤ 255 := Nat.le_of_lt_succ b.isLt
    have := Nat.mul_le_mul_right (byteRange bytes.length) hb
    rw [valueOf, List.length_cons, byteRange]
    omega

theorem valueOf_bytesOf (count value : Nat) :
    valueOf (bytesOf count value) = value % byteRange count := by
  induction count with
  | zero => simp [bytesOf, valueOf, byteRange, Nat.mod_one]
  | succ count ih =>
    rw [bytesOf, valueOf, ih, length_bytesOf, BitVec.toNat_ofNat, byteRange, Nat.mul_comm 256,
      Nat.mod_mul, Nat.mul_comm, Nat.add_comm]

theorem bytesOf_add_mul (count value carry : Nat) :
    bytesOf count (carry * byteRange count + value) = bytesOf count value := by
  induction count generalizing carry value with
  | zero => rfl
  | succ count ih =>
    have split : carry * byteRange (count + 1) + value =
        carry * 256 * byteRange count + value := by
      rw [byteRange, Nat.mul_assoc]
    rw [bytesOf, bytesOf, split, ih]
    congr 1
    rw [Nat.add_comm, Nat.add_mul_div_right _ _ (byteRange_pos count)]
    apply BitVec.eq_of_toNat_eq
    simp only [BitVec.toNat_ofNat]
    omega

theorem bytesOf_valueOf (bytes : List Byte) : bytesOf bytes.length (valueOf bytes) = bytes := by
  induction bytes with
  | nil => rfl
  | cons b bytes ih =>
    rw [List.length_cons, bytesOf, valueOf, bytesOf_add_mul, ih]
    congr 1
    rw [Nat.add_comm, Nat.add_mul_div_right _ _ (byteRange_pos _),
      Nat.div_eq_of_lt (valueOf_lt bytes), Nat.zero_add]
    exact BitVec.ofNat_toNat ..

end CallBridge
