import CallBridge.Kind
import CallBridge.Text.Blank
import CallBridge.Text.Numeral

/-!
# Kinds as text

A primitive kind is written as its keyword, a reference as `&T`, an enum as `enum(T)` and a value
type as `vt(size)`. Reading allows blanks around every kind and around the size, an optional plus
sign and leading zeros in the size, and nothing else.
-/

namespace CallBridge

open Text

/-- Why a text is no kind; the text is quoted without the blanks around it. -/
inductive TextFault
  | unknownType (text : String)
  | valueTypeSize (text : String)
deriving DecidableEq, Repr

def TextFault.message : TextFault → String
  | unknownType text => s!"unknown type '{text}'"
  | valueTypeSize text => s!"invalid value type size in '{text}'"

namespace Primitive

def keyword : Primitive → List Char
  | void => "void".toList
  | boolean => "bool".toList
  | char => "char".toList
  | int8 => "i1".toList
  | uint8 => "u1".toList
  | int16 => "i2".toList
  | uint16 => "u2".toList
  | int32 => "i4".toList
  | uint32 => "u4".toList
  | nativeInt => "i".toList
  | nativeUInt => "u".toList
  | pointer => "ptr".toList
  | object => "object".toList
  | string => "string".toList
  | array => "szarray".toList
  | int64 => "i8".toList
  | float32 => "r4".toList
  | float64 => "r8".toList

def ofKeyword? (text : List Char) : Option Primitive :=
  all.find? fun p => p.keyword = text

theorem ofKeyword?_keyword (p : Primitive) : ofKeyword? p.keyword = some p := by
  cases p <;> decide

theorem keyword_of_ofKeyword? {text : List Char} {p : Primitive} (h : ofKeyword? text = some p) :
    p.keyword = text := by
  simpa using List.find?_some h

end Primitive

namespace Kind

def chars : Kind → List Char
  | primitive p => p.keyword
  | byRef target => '&' :: target.chars
  | enum base => "enum(".toList ++ (base.chars ++ [')'])
  | valueType size => "vt(".toList ++ (decimal size.toNat ++ [')'])

def text (k : Kind) : String :=
  String.ofList k.chars

/-- What the outermost part of a trimmed text says, with the texts of its parts. -/
inductive Shape
  | byRef (target : List Char)
  | enum (base : List Char)
  | valueType (size : List Char)
  | bare

def Shape.of (text : List Char) : Shape :=
  match after? ['&'] text with
  | some target => byRef target
  | none =>
    match between? "enum(".toList [')'] text with
    | some base => enum base
    | none =>
      match between? "vt(".toList [')'] text with
      | some size => valueType size
      | none => bare

theorem Shape.of_eq_byRef {text target : List Char} (h : Shape.of text = byRef target) :
    text = '&' :: target := by
  unfold Shape.of at h
  split at h
  · rename_i target' hafter
    cases h
    simpa using after?_eq_some_iff.1 hafter
  · repeat' split at h
    all_goals cases h

theorem Shape.of_eq_enum {text base : List Char} (h : Shape.of text = enum base) :
    text = "enum(".toList ++ (base ++ [')']) := by
  unfold Shape.of at h
  split at h
  · cases h
  · split at h
    · rename_i base' hbetween
      cases h
      exact between?_eq_some_iff.1 hbetween
    · split at h <;> cases h

/-- Reads a kind, going into its parts from the outside. -/
def ofChars (text : List Char) : Except TextFault Kind :=
  match _shape : Shape.of (trim text) with
  | .byRef target => (ofChars target).map byRef
  | .enum base => (ofChars base).map enum
  | .valueType size =>
    match unsigned? (trim size) with
    | some size => .ok (valueType size)
    | none => .error (.valueTypeSize (String.ofList (trim text)))
  | .bare =>
    match Primitive.ofKeyword? (trim text) with
    | some p => .ok (primitive p)
    | none => .error (.unknownType (String.ofList (trim text)))
termination_by text.length
decreasing_by
  · have := length_trim_le text
    rw [Shape.of_eq_byRef _shape, List.length_cons] at this
    exact this
  · have := length_trim_le text
    rw [Shape.of_eq_enum _shape] at this
    simp only [List.length_append, List.length_cons] at this
    omega

def ofText (s : String) : Except TextFault Kind :=
  ofChars s.toList

end Kind

end CallBridge
