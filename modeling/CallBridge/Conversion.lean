import CallBridge.Kind.Passing
import CallBridge.SinglePrecision
import CallBridge.Tagged

/-!
# Conversion of native values

How a native value in memory becomes a tagged value: integers narrower than a word are extended by
zeros or by their sign, singles are widened. A descriptor names the native type.
-/

namespace CallBridge

/-- The types that a native argument can have in memory. -/
inductive NativeType
  | uint8
  | int8
  | uint16
  | int16
  | word
  | int64
  | float32
  | float64
deriving DecidableEq, Repr

namespace NativeType

def all : List NativeType :=
  [uint8, int8, uint16, int16, word, int64, float32, float64]

def bytes : NativeType → Nat
  | uint8 | int8 => 1
  | uint16 | int16 => 2
  | word | float32 => 4
  | int64 | float64 => 8

/-- The descriptor of the type: the low byte is the number of bytes, and a signed narrow integer or
a float has a bit of its own. -/
def descriptor : NativeType → Word
  | uint8 => 0x001
  | int8 => 0x101
  | uint16 => 0x002
  | int16 => 0x102
  | word => 0x004
  | int64 => 0x008
  | float32 => 0x204
  | float64 => 0x208

def ofDescriptor? (d : Word) : Option NativeType :=
  all.find? fun type => type.descriptor = d

theorem ofDescriptor?_descriptor (type : NativeType) :
    ofDescriptor? type.descriptor = some type := by
  cases type <;> decide

/-- The native type of a parameter. A reference, and a kind that cannot be passed, counts as a
word. -/
def ofKind : Kind → NativeType
  | .byRef _ => word
  | kind =>
    match kind.underlying with
    | .ok (.primitive p) =>
      match p with
      | .boolean | .uint8 => uint8
      | .int8 => int8
      | .char | .uint16 => uint16
      | .int16 => int16
      | .int64 => int64
      | .float32 => float32
      | .float64 => float64
      | _ => word
    | _ => word

/-- The tagged value of a native value, given as the number that its bytes spell. -/
def toTagged (type : NativeType) (value : Nat) : Tagged :=
  match type with
  | uint8 | uint16 | word => .ofInt32 (BitVec.ofNat 32 value)
  | int8 => .ofInt32 ((BitVec.ofNat 8 value).signExtend 32)
  | int16 => .ofInt32 ((BitVec.ofNat 16 value).signExtend 32)
  | int64 => .ofInt64 (BitVec.ofNat 64 value)
  | float32 => .ofFloat64 (SinglePrecision.widen (BitVec.ofNat 32 value))
  | float64 => .ofFloat64 (BitVec.ofNat 64 value)

end NativeType

end CallBridge
