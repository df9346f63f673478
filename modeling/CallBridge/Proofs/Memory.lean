import CallBridge.Machine
import Mathlib.Data.Set.Function
import Mathlib.Order.CompletePartialOrder
import Mathlib.Order.Interval.Set.Disjoint

/-!
# Words in memory

Sets of addresses and what memory holds there. A range of bytes is a half-open interval of
addresses; two memories that agree on a range hold the same bytes, word and double word in it, and
storing somewhere changes nothing on a set that is disjoint from the bytes stored.
-/

namespace CallBridge

def addresses : Set Nat :=
  Set.Ico memoryStart memoryEnd

/-- A nonempty range in memory starts and ends in it. -/
theorem bounds_of_subset {a b : Nat} (hab : a < b) (h : Set.Ico a b ⊆ addresses) :
    memoryStart ≤ a ∧ b ≤ memoryEnd :=
  (Set.Ico_subset_Ico_iff hab).mp h

theorem disjoint_ranges {a b c d : Nat} (h : b ≤ c ∨ d ≤ a) :
    Disjoint (Set.Ico a b) (Set.Ico c d) := by
  rw [Set.disjoint_left]
  rintro x ⟨hlo, hhi⟩ ⟨hlo', hhi'⟩
  omega

theorem memoryEnd_lt : memoryEnd < 4294967296 := by decide

/-! ## Bytes of numbers -/

theorem byteRange_add (n k : Nat) : byteRange (n + k) = byteRange n * byteRange k := by
  induction n with
  | zero => simp [byteRange]
  | succ n ih => rw [Nat.add_right_comm, byteRange, byteRange, ih, Nat.mul_assoc]

theorem bytesOf_add (n k value : Nat) :
    bytesOf (n + k) value = bytesOf n (value / byteRange k) ++ bytesOf k value := by
  induction n with
  | zero => rw [Nat.zero_add, bytesOf, List.nil_append]
  | succ n ih =>
      rw [Nat.add_right_comm, bytesOf, bytesOf, ih, byteRange_add, Nat.div_div_eq_div_mul,
        Nat.mul_comm (byteRange k), List.cons_append]

/-- A run of bytes comes back from the bit vector that holds the number it spells. -/
theorem bytesOf_toNat_ofNat {bytes : List Byte} {count width : Nat} (hlength : bytes.length = count)
    (hwidth : byteRange count = 1 <<< width) :
    bytesOf count (BitVec.ofNat width (valueOf bytes)).toNat = bytes := by
  subst hlength
  rw [BitVec.toNat_ofNat, ← Nat.one_shiftLeft, ← hwidth, Nat.mod_eq_of_lt (valueOf_lt bytes),
    bytesOf_valueOf]

namespace Memory

/-- The word that the four bytes from an address on spell. -/
def word (m : Memory) (a : Nat) : Word :=
  BitVec.ofNat 32 (valueOf (m.load a 4))

/-- The double word that the eight bytes from an address on spell. -/
def doubleWord (m : Memory) (a : Nat) : DoubleWord :=
  BitVec.ofNat 64 (valueOf (m.load a 8))

variable {m m' : Memory} {a n : Nat} {bytes : List Byte}

/-! ## Agreement -/

theorem load_eq_of_eqOn (h : Set.EqOn m.byte m'.byte (Set.Ico a (a + n))) :
    m.load a n = m'.load a n :=
  load_congr fun _ hx hx' => h ⟨hx, hx'⟩

theorem word_eq_of_eqOn (h : Set.EqOn m.byte m'.byte (Set.Ico a (a + 4))) :
    m.word a = m'.word a := by
  rw [word, word, load_eq_of_eqOn h]

theorem doubleWord_eq_of_eqOn (h : Set.EqOn m.byte m'.byte (Set.Ico a (a + 8))) :
    m.doubleWord a = m'.doubleWord a := by
  rw [doubleWord, doubleWord, load_eq_of_eqOn h]

theorem load_add (m : Memory) (a n k : Nat) :
    m.load a (n + k) = m.load a n ++ m.load (a + n) k := by
  induction n generalizing a with
  | zero => simp [load]
  | succ n ih =>
      have hcount : n + 1 + k = n + k + 1 := by omega
      have hnext : a + 1 + n = a + (n + 1) := by omega
      rw [hcount, load, ih, hnext]
      rfl

/-! ## Storing -/

theorem byte_store_of_notMem {x : Nat} (h : x ∉ Set.Ico a (a + bytes.length)) :
    (m.store a bytes).byte x = m.byte x := by
  rw [byte_store]
  split
  · rw [List.getElem?_eq_none, Option.getD_none]
    rw [Set.mem_Ico] at h
    omega
  · rfl

/-- Storing changes nothing on a set that is disjoint from the bytes stored. -/
theorem eqOn_store {A : Set Nat} (h : Disjoint A (Set.Ico a (a + bytes.length))) :
    Set.EqOn (m.store a bytes).byte m.byte A :=
  fun _ hx => byte_store_of_notMem (Set.disjoint_left.mp h hx)

theorem word_store (m : Memory) (a : Nat) (w : Word) :
    (m.store a (bytesOf 4 w.toNat)).word a = w := by
  have hload : (m.store a (bytesOf 4 w.toNat)).load a 4 = bytesOf 4 w.toNat := by
    simpa using load_store m a (bytesOf 4 w.toNat)
  have hfits : w.toNat % byteRange 4 = w.toNat := Nat.mod_eq_of_lt w.isLt
  rw [word, hload, valueOf_bytesOf, hfits, BitVec.ofNat_toNat, BitVec.setWidth_eq]

theorem store_append (m : Memory) (a : Nat) (l l' : List Byte) :
    m.store a (l ++ l') = (m.store a l).store (a + l.length) l' := by
  induction l generalizing m a with
  | nil => rfl
  | cons b l ih =>
      have hnext : a + 1 + l.length = a + (b :: l).length := by
        rw [List.length_cons]
        omega
      rw [List.cons_append, store, ih, hnext]
      rfl

theorem word_store_of_disjoint (h : a + 4 ≤ n ∨ n + bytes.length ≤ a) :
    (m.store n bytes).word a = m.word a := by
  rw [word, word, load_store_of_disjoint m h]

theorem bytesOf_word (m : Memory) (a : Nat) : bytesOf 4 (m.word a).toNat = m.load a 4 :=
  bytesOf_toNat_ofNat (length_load ..) rfl

/-- A value narrower than a word lies at the high end of its word. -/
theorem load_low (m : Memory) (a : Nat) {size : Nat} (h : size ≤ 4) :
    m.load (a + (4 - size)) size = bytesOf size (m.word a).toNat := by
  have hsplit : 4 = 4 - size + size := by omega
  have hword := m.bytesOf_word a
  rw [hsplit, load_add, bytesOf_add] at hword
  exact (List.append_inj_right hword (by rw [length_bytesOf, length_load])).symm

end Memory

end CallBridge
