import CallBridge.Text.Cut

/-!
# Numerals

Decimal numbers as they are written and read, and the lower-case hexadecimal forms that listings
and messages use. Reading takes back what writing produces.
-/

namespace CallBridge.Text

/-! ## Decimal -/

def decimal (n : Nat) : List Char :=
  Nat.toDigits 10 n

/-- The value of a non-empty run of decimal digits; leading zeros are allowed. -/
def decimal? (digits : List Char) : Option Nat :=
  if digits ≠ [] ∧ digits.all Char.isDigit then
    some (Nat.ofDigitChars 10 digits 0)
  else
    none

/-- A 32-bit unsigned number: decimal digits after an optional plus sign. -/
def unsigned? (text : List Char) : Option (BitVec 32) :=
  let digits := (after? ['+'] text).getD text
  (decimal? digits).bind fun value =>
    if value ≤ 0xffffffff then some (BitVec.ofNat 32 value) else none

theorem decimal?_decimal (n : Nat) : decimal? (decimal n) = some n := by
  have digits : (decimal n).all Char.isDigit = true :=
    List.all_eq_true.2 fun _ hc => Nat.isDigit_of_mem_toDigits (by decide) (by decide) hc
  rw [decimal?, if_pos ⟨Nat.toDigits_ne_nil, digits⟩, decimal,
    Nat.ofDigitChars_toDigits (by decide) (by decide)]

/-! ## Hexadecimal -/

/-- At least `width` lower-case hexadecimal digits, with zeros in front. -/
def hexadecimal (width n : Nat) : List Char :=
  (Nat.toDigits 16 n).leftpad width '0'

/-- Eight hexadecimal digits, or more where the number needs them. -/
def hex8 (n : Nat) : String :=
  String.ofList (hexadecimal 8 n)

def hexByte (b : BitVec 8) : String :=
  String.ofList (hexadecimal 2 b.toNat)

end CallBridge.Text
