import CallBridge.Bytes

/-!
# Kinds of values

What a parameter or a result can be: a primitive kind, a managed reference, an enum over another
kind, or a value type of which only the size is known.
-/

namespace CallBridge

/-- The kinds without parts; each is written as one keyword. -/
inductive Primitive
  | void
  | boolean
  | char
  | int8
  | uint8
  | int16
  | uint16
  | int32
  | uint32
  | nativeInt
  | nativeUInt
  | pointer
  | object
  | string
  | array
  | int64
  | float32
  | float64
deriving DecidableEq, Repr

inductive Kind
  | primitive (p : Primitive)
  /-- A managed pointer to a value of the target kind. -/
  | byRef (target : Kind)
  /-- An enum with the given underlying kind. -/
  | enum (base : Kind)
  /-- Any other value type, known by its size in bytes. -/
  | valueType (size : BitVec 32)
deriving DecidableEq, Repr

namespace Primitive

def all : List Primitive :=
  [void, boolean, char, int8, uint8, int16, uint16, int32, uint32, nativeInt, nativeUInt,
   pointer, object, string, array, int64, float32, float64]

theorem mem_all (p : Primitive) : p ∈ all := by
  cases p <;> decide

/-- The kinds that an enum may rest on. -/
def isInteger : Primitive → Bool
  | boolean | char | int8 | uint8 | int16 | uint16 | int32 | uint32 | nativeInt | nativeUInt
  | int64 => true
  | void | pointer | object | string | array | float32 | float64 => false

end Primitive

namespace Kind

def isInteger : Kind → Bool
  | primitive p => p.isInteger
  | _ => false

/-- The number of enum layers on the outside of a kind. -/
def enumDepth : Kind → Nat
  | enum base => base.enumDepth + 1
  | _ => 0

/-- The kind inside all outer enum layers. -/
def enumCore : Kind → Kind
  | enum base => base.enumCore
  | kind => kind

theorem enumCore_eq_self {k : Kind} (h : k.enumDepth = 0) : k.enumCore = k := by
  cases k with
  | enum base => simp [enumDepth] at h
  | _ => rfl

theorem enumCore_ne_enum (k base : Kind) : k.enumCore ≠ enum base := by
  induction k with
  | enum inner ih => exact ih
  | _ => simp [enumCore]

end Kind

end CallBridge
