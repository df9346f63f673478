import CallBridge.Unsupported

/-!
# How values are passed

An enum is passed as the kind it rests on. Every argument travels as a word of a native width, as a
64-bit integer or as a float, and a result likewise; a reference is a raw pointer whatever it points
to. Kinds that travel in no such way are refused.
-/

namespace CallBridge

/-- How many kinds of an enum chain are looked at. A chain that goes on after them is malformed. -/
def enumDepthLimit : Nat := 16

/-- Looks at the kinds of an enum chain one after the other, at most `looks` of them, for the kind
that the chain rests on. Inside of an enum that kind must be an integer. -/
def Kind.unwrap : (looks : Nat) → (inEnum : Bool) → Kind → Except Unsupported Kind
  | 0, _, _ => .error .enumTooDeep
  | looks + 1, _, enum base => base.unwrap looks true
  | _ + 1, inEnum, kind =>
    if inEnum ∧ ¬kind.isInteger then .error (.enumBase kind) else .ok kind

/-- The kind that an enum chain rests on, which must be an integer; other kinds rest on
themselves. -/
def Kind.underlying (k : Kind) : Except Unsupported Kind :=
  k.unwrap enumDepthLimit false

/-! ## Arguments -/

/-- How an argument travels. -/
inductive ArgClass
  /-- In one general register or stack word; `size` is the native width in bytes of the value in
  it. Values of primitive kinds have one, two or four bytes. -/
  | word (size : Nat)
  /-- A 64-bit integer, in a pair of general registers. -/
  | wide
  | single
  | double
deriving DecidableEq, Repr

def Primitive.argClass? : Primitive → Option ArgClass
  | void => none
  | boolean | int8 | uint8 => some (.word 1)
  | char | int16 | uint16 => some (.word 2)
  | int32 | uint32 | nativeInt | nativeUInt | pointer | object | string | array =>
    some (.word 4)
  | int64 => some .wide
  | float32 => some .single
  | float64 => some .double

theorem Primitive.size_of_argClass? {p : Primitive} {size : Nat}
    (h : p.argClass? = some (.word size)) : size = 1 ∨ size = 2 ∨ size = 4 := by
  cases p <;> simp_all [argClass?]

/-- How a parameter of the given kind travels. -/
def ArgClass.ofKind (position : Nat) : Kind → Except Unsupported ArgClass
  | .byRef _ => .ok (.word 4)
  | kind => do
    match ← kind.underlying with
    | .primitive p =>
      match p.argClass? with
      | some argClass => .ok argClass
      | none => .error (.argument position (.primitive p))
    | .valueType size => .error (.valueTypeArgument position size)
    | other => .error (.argument position other)

/-! ## Results -/

/-- How a result travels. -/
inductive ReturnClass
  | void
  | byte
  | half
  | word
  | wide
  | single
  | double
  /-- A raw pointer: the result of a by-reference return or of a string constructor. -/
  | pointer
deriving DecidableEq, Repr

def Primitive.returnClass : Primitive → ReturnClass
  | void => .void
  | boolean | int8 | uint8 => .byte
  | char | int16 | uint16 => .half
  | int32 | uint32 | nativeInt | nativeUInt | pointer | object | string | array => .word
  | int64 => .wide
  | float32 => .single
  | float64 => .double

/-- How a result of the given kind travels. A string constructor gives a pointer whatever its
declared result is. -/
def ReturnClass.ofKind (stringCtor : Bool) (kind : Kind) : Except Unsupported ReturnClass :=
  if stringCtor then
    .ok .pointer
  else
    match kind with
    | .byRef _ => .ok .pointer
    | kind => do
      match ← kind.underlying with
      | .primitive p => .ok p.returnClass
      | .valueType size => .error (.valueTypeResult size)
      | other => .error (.result other)

end CallBridge
