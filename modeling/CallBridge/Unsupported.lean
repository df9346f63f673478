import CallBridge.Kind.Text

/-!
# What no bridge can be built for

The reasons to refuse a signature, and their texts.
-/

namespace CallBridge

/-- Why an argument finds no place: the registers of its class are used up, and it may not go to
the stack. -/
inductive Shortage
  | pair
  | float
deriving DecidableEq, Repr

/-- Why a signature has no bridge. Positions count parameters from zero. -/
inductive Unsupported
  | valueTypeArgument (position : Nat) (size : BitVec 32)
  | placement (position : Nat) (shortage : Shortage)
  | argument (position : Nat) (kind : Kind)
  | result (kind : Kind)
  | valueTypeResult (size : BitVec 32)
  | enumBase (kind : Kind)
  | enumTooDeep
  /-- The stub would need a displacement of `size`, or a frame of about that size. -/
  | frameTooLarge (size : Nat)
deriving DecidableEq, Repr

def Shortage.message : Shortage → String
  | pair => "64-bit integer argument on the stack"
  | float => "floating-point argument on the stack"

def Unsupported.message : Unsupported → String
  | valueTypeArgument position size =>
    let size := size.toNat
    s!"parameter {position}: can only marshal enums, not generic structures (size: {size})"
  | placement position shortage =>
    let reason := shortage.message
    s!"parameter {position}: {reason} is not implemented"
  | argument position kind =>
    let kind := kind.text
    s!"parameter {position}: cannot trampoline {kind}"
  | result kind =>
    let kind := kind.text
    s!"cannot handle {kind} as return value"
  | valueTypeResult size =>
    let size := size.toNat
    s!"value type return (size: {size}) is not implemented"
  | enumBase kind =>
    let kind := kind.text
    s!"enum must have an integer underlying type, found {kind}"
  | enumTooDeep => "enum nesting is too deep"
  | frameTooLarge size => s!"frame of {size} bytes exceeds the 16-bit displacement range"

end CallBridge
