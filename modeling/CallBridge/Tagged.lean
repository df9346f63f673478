import CallBridge.Bytes

/-!
# Tagged values

The interpreter's one form for arguments and results: eight bytes of data and a tag, in sixteen
bytes of memory. A 32-bit integer or an address lies in the first four bytes of the data, a 64-bit
integer or a double in all eight, most significant byte first.
-/

namespace CallBridge

def taggedSize : Nat := 16

/-- The tags of the values that the library makes. -/
inductive Tag
  | int32
  | float64
  | int64
  | pointer
  | object
deriving DecidableEq, Repr

def Tag.value : Tag → Word
  | int32 => 0
  | float64 => 1
  | int64 => 2
  | pointer => 4
  | object => 8

/-- A tagged value: the data, most significant bit first, and the number of the tag. -/
structure Tagged where
  data : DoubleWord
  tag : Word
deriving DecidableEq, Repr

namespace Tagged

/-! ## Making -/

/-- The data of a value that occupies the first four bytes. -/
def high (w : Word) : DoubleWord :=
  w ++ (0 : Word)

def ofInt32 (w : Word) : Tagged :=
  ⟨high w, Tag.int32.value⟩

def ofPointer (address : Word) : Tagged :=
  ⟨high address, Tag.pointer.value⟩

def ofInt64 (bits : DoubleWord) : Tagged :=
  ⟨bits, Tag.int64.value⟩

def ofFloat64 (bits : DoubleWord) : Tagged :=
  ⟨bits, Tag.float64.value⟩

/-! ## Reading -/

def asInt32 (v : Tagged) : Int :=
  (v.data.extractLsb' 32 32).toInt

def asInt64 (v : Tagged) : Int :=
  v.data.toInt

def asFloat64 (v : Tagged) : DoubleWord :=
  v.data

/-! ## Memory form -/

/-- The sixteen bytes of a value: the data, the tag and four zeros. -/
def bytes (v : Tagged) : List Byte :=
  bytesOf 8 v.data.toNat ++ (bytesOf 4 v.tag.toNat ++ bytesOf 4 0)

/-- The value in a run of sixteen bytes. The last four do not matter. -/
def ofBytes (block : List Byte) : Tagged where
  data := BitVec.ofNat 64 (valueOf (block.take 8))
  tag := BitVec.ofNat 32 (valueOf ((block.drop 8).take 4))

@[simp]
theorem length_bytes (v : Tagged) : v.bytes.length = taggedSize := by
  simp [bytes, taggedSize]

/-- A value comes back from its memory form. -/
theorem ofBytes_bytes (v : Tagged) : ofBytes v.bytes = v := by
  have data : v.bytes.take 8 = bytesOf 8 v.data.toNat :=
    List.take_left' (length_bytesOf ..)
  have tag : (v.bytes.drop 8).take 4 = bytesOf 4 v.tag.toNat := by
    rw [bytes, List.drop_left' (length_bytesOf ..)]
    exact List.take_left' (length_bytesOf ..)
  have dataFits : v.data.toNat % byteRange 8 = v.data.toNat := Nat.mod_eq_of_lt v.data.isLt
  have tagFits : v.tag.toNat % byteRange 4 = v.tag.toNat := Nat.mod_eq_of_lt v.tag.isLt
  rw [ofBytes, data, tag, valueOf_bytesOf, valueOf_bytesOf, dataFits, tagFits]
  simp

end Tagged

end CallBridge
