import CallBridge.Conversion
import CallBridge.Proofs.Memory
import CallBridge.Proofs.Places

/-!
# Tagged values as native arguments

Reduced to its native width, a tagged value is a run of bytes, which depend on the class of the
argument only (`ArgClass.native`). Converted back by the type of the parameter they give the value
that the argument stands for (`NativeType.toTagged_native`): the low end of the integer, extended,
or the double, rounded where it was a single on its way.
-/

namespace CallBridge

/-! ## Tagged values in memory -/

/-- The member of a tagged value that holds a 32-bit integer or an address. -/
def Tagged.word (v : Tagged) : Word :=
  v.data.extractLsb' 32 32

theorem valueOf_append (l l' : List Byte) :
    valueOf (l ++ l') = valueOf l * byteRange l'.length + valueOf l' := by
  induction l with
  | nil => simp [valueOf]
  | cons b l ih =>
      rw [List.cons_append, valueOf, valueOf, ih, List.length_append, byteRange_add, Nat.add_mul,
        Nat.mul_assoc, Nat.add_assoc]

namespace Memory

variable (m : Memory) (a : Nat)

theorem bytesOf_doubleWord : bytesOf 8 (m.doubleWord a).toNat = m.load a 8 :=
  bytesOf_toNat_ofNat (length_load ..) rfl

/-- Two words make a double word. -/
theorem bytesOf_words :
    bytesOf 4 (m.word a).toNat ++ bytesOf 4 (m.word (a + 4)).toNat =
      bytesOf 8 (m.doubleWord a).toNat := by
  rw [bytesOf_word, bytesOf_word, bytesOf_doubleWord, ← load_add]

theorem high_doubleWord : (m.doubleWord a).extractLsb' 32 32 = m.word a := by
  have hhigh : valueOf (m.load a 4) < 4294967296 := by
    simpa [byteRange] using valueOf_lt (m.load a 4)
  have hlow : valueOf (m.load (a + 4) 4) < 4294967296 := by
    simpa [byteRange] using valueOf_lt (m.load (a + 4) 4)
  have hvalue : valueOf (m.load a 8) =
      valueOf (m.load a 4) * 4294967296 + valueOf (m.load (a + 4) 4) := by
    rw [m.load_add a 4 4, valueOf_append, length_load]
    rfl
  apply BitVec.eq_of_toNat_eq
  rw [BitVec.extractLsb'_toNat, doubleWord, word, BitVec.toNat_ofNat, BitVec.toNat_ofNat, hvalue,
    Nat.shiftRight_eq_div_pow]
  omega

theorem data_ofBytes_load : (Tagged.ofBytes (m.load a taggedSize)).data = m.doubleWord a := by
  have htake : (m.load a taggedSize).take 8 = m.load a 8 := by
    rw [taggedSize, m.load_add a 8 8]
    exact List.take_left' (length_load ..)
  rw [Tagged.ofBytes, htake]
  rfl

theorem word_ofBytes_load : (Tagged.ofBytes (m.load a taggedSize)).word = m.word a := by
  rw [Tagged.word, data_ofBytes_load, high_doubleWord]

variable {m a}

theorem doubleWord_of_load {v : Tagged} (h : m.load a taggedSize = v.bytes) :
    m.doubleWord a = v.data := by
  rw [← data_ofBytes_load, h, Tagged.ofBytes_bytes]

theorem word_of_load {v : Tagged} (h : m.load a taggedSize = v.bytes) : m.word a = v.word := by
  rw [← word_ofBytes_load, h, Tagged.ofBytes_bytes]

end Memory

/-! ## Native bytes -/

/-- The bytes of a tagged value as a native argument. A narrow integer is the low end of the word,
and a single is the double, narrowed. -/
def ArgClass.native (v : Tagged) : ArgClass → List Byte
  | word size => bytesOf size v.word.toNat
  | wide | double => bytesOf 8 v.data.toNat
  | single => bytesOf 4 (SinglePrecision.narrow v.data).toNat

namespace NativeType

/-- How an argument of this type travels. -/
def argClass : NativeType → ArgClass
  | uint8 | int8 => .word 1
  | uint16 | int16 => .word 2
  | word => .word 4
  | int64 => .wide
  | float32 => .single
  | float64 => .double

/-- What comes of a tagged value that is passed as an argument of a native type: the word cut to the
native width and extended by zeros or its sign, the 64-bit integer and the double as they are, and
the double rounded to single precision. -/
def passed (v : Tagged) : NativeType → Tagged
  | uint8 => .ofInt32 ((v.word.setWidth 8).setWidth 32)
  | int8 => .ofInt32 ((v.word.setWidth 8).signExtend 32)
  | uint16 => .ofInt32 ((v.word.setWidth 16).setWidth 32)
  | int16 => .ofInt32 ((v.word.setWidth 16).signExtend 32)
  | word => .ofInt32 v.word
  | int64 => .ofInt64 v.data
  | float32 => .ofFloat64 (SinglePrecision.round v.data)
  | float64 => .ofFloat64 v.data

theorem toTagged_native (type : NativeType) (v : Tagged) :
    type.toTagged (valueOf (type.argClass.native v)) = type.passed v := by
  have hone : byteRange 1 = 256 := rfl
  have htwo : byteRange 2 = 65536 := rfl
  have hfour : byteRange 4 = 4294967296 := rfl
  have height : byteRange 8 = 18446744073709551616 := rfl
  have hword := v.word.isLt
  have hdata := v.data.isLt
  cases type with
  | uint8 | uint16 =>
      simp only [argClass, ArgClass.native, valueOf_bytesOf, toTagged, passed, hone, htwo]
      congr 1
      apply BitVec.eq_of_toNat_eq
      simp only [BitVec.toNat_ofNat, BitVec.toNat_setWidth]
  | int8 | int16 =>
      simp only [argClass, ArgClass.native, valueOf_bytesOf, toTagged, passed, hone, htwo]
      congr 2
      apply BitVec.eq_of_toNat_eq
      simp only [BitVec.toNat_ofNat, BitVec.toNat_setWidth]
      omega
  | word | int64 | float64 =>
      simp only [argClass, ArgClass.native, valueOf_bytesOf, toTagged, passed, hfour, height,
        Nat.mod_eq_of_lt hword, Nat.mod_eq_of_lt hdata, BitVec.ofNat_toNat, BitVec.setWidth_eq]
  | float32 =>
      have hsingle := (SinglePrecision.narrow v.data).isLt
      simp only [argClass, ArgClass.native, valueOf_bytesOf, toTagged, passed, hfour,
        Nat.mod_eq_of_lt hsingle, BitVec.ofNat_toNat, BitVec.setWidth_eq, SinglePrecision.round]

/-! ## Kinds -/

theorem argClass_ofKind {position : Nat} {kind : Kind} {argClass : ArgClass}
    (h : ArgClass.ofKind position kind = .ok argClass) : argClass = (ofKind kind).argClass := by
  cases kind with
  | byRef target =>
      cases h
      rfl
  | primitive _ | enum _ | valueType _ =>
      obtain ⟨core, hunderlying, hcore⟩ := bind_eq_ok_iff.mp h
      cases core with
      | primitive p =>
          rw [ofKind, hunderlying]
          · cases p <;> simp_all [Primitive.argClass?, NativeType.argClass]
          · simp
      | _ => cases hcore

end NativeType

/-- The class of every placed argument is that of its parameter's native type. -/
theorem argClass_of_placeFrom : ∀ {params : List Parameter} {c c' : Cursor} {position : Nat}
    {placed : List PlacedArg}, placeFrom c position params = .ok (placed, c') →
    ∀ arg ∈ params.zip placed, arg.2.argClass = (NativeType.ofKind arg.1.kind).argClass
  | [], _, _, _, _, _ => by simp
  | p :: params, c, c', position, placed, h => by
      obtain ⟨argClass, hclass, h⟩ := bind_eq_ok_iff.mp h
      obtain ⟨⟨location, c₁⟩, -, h⟩ := bind_eq_ok_iff.mp h
      obtain ⟨⟨rest, c₂⟩, hrest, h⟩ := bind_eq_ok_iff.mp h
      cases h
      rw [List.zip_cons_cons, List.forall_mem_cons]
      exact ⟨NativeType.argClass_ofKind hclass, argClass_of_placeFrom hrest⟩

end CallBridge
