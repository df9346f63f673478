import CallBridge.Bytes

/-!
# Single precision

Conversion between the bits of double-precision and of single-precision numbers. Narrowing rounds to
the nearest single, a tie to the one with an even last bit; widening is exact. Both keep the sign,
infinities, and a NaN as a quiet NaN with the leading bits of its payload.
-/

namespace CallBridge

/-- The quotient by the power of two with exponent `shift`, rounded to nearest, a half to the even
neighbour. -/
def roundShift (value shift : Nat) : Nat :=
  let unit := 1 <<< shift
  let quotient := value / unit
  let rest := value % unit
  if 2 * rest > unit ∨ 2 * rest = unit ∧ quotient % 2 = 1 then quotient + 1 else quotient

namespace SinglePrecision

/-! ## Parts of a number -/

def doubleExponent (bits : DoubleWord) : Nat := bits.toNat >>> 52 % 2048

def doubleFraction (bits : DoubleWord) : Nat := bits.toNat % 0x10000000000000

def singleExponent (bits : Word) : Nat := bits.toNat >>> 23 % 256

def singleFraction (bits : Word) : Nat := bits.toNat % 0x800000

/-- The bits of a single with the given magnitude bits. -/
def single (negative : Bool) (magnitude : Nat) : Word :=
  BitVec.ofNat 32 (negative.toNat <<< 31 + magnitude)

/-- The bits of a double with the given exponent and fraction. -/
def double (negative : Bool) (exponent fraction : Nat) : DoubleWord :=
  BitVec.ofNat 64 ((negative.toNat <<< 11 + exponent) <<< 52 + fraction)

/-- The highest bit of a single's fraction; a NaN with this bit set is quiet. -/
def quietBit : Nat := 1 <<< 22

/-! ## Narrowing -/

/-- The magnitude bits of infinity in single precision. -/
def infinity : Nat := 255 <<< 23

/-- The magnitude bits of the single nearest to a finite double. The units of the two formats lie 29
bits apart; below the smallest normal single, whose exponent as a double is 897, the unit stays that
of the smallest normal. A carry out of the rounded fraction raises the exponent, in the end to
infinity. -/
def narrowFinite (exponent fraction : Nat) : Nat :=
  let significand := if exponent = 0 then fraction else 1 <<< 52 + fraction
  let shift := 29 + (897 - exponent)
  min ((exponent - 897) <<< 23 + roundShift significand shift) infinity

/-- The single nearest to a double. -/
def narrow (bits : DoubleWord) : Word :=
  let exponent := doubleExponent bits
  let fraction := doubleFraction bits
  single bits.msb <|
    if exponent = 2047 then
      if fraction = 0 then infinity else infinity + quietBit + fraction >>> 29 % quietBit
    else
      narrowFinite exponent fraction

/-! ## Widening -/

/-- The double equal to a single. A single below the smallest normal has its highest set bit moved
in front of the point. -/
def widen (bits : Word) : DoubleWord :=
  let exponent := singleExponent bits
  let fraction := singleFraction bits
  if exponent = 255 then
    if fraction = 0 then double bits.msb 2047 0
    else double bits.msb 2047 ((quietBit + fraction % quietBit) <<< 29)
  else if exponent = 0 then
    if fraction = 0 then double bits.msb 0 0
    else
      let top := fraction.log2
      double bits.msb (874 + top) ((fraction - 1 <<< top) <<< (52 - top))
  else
    double bits.msb (exponent + 896) (fraction <<< 29)

/-- A double rounded to single precision. -/
def round (bits : DoubleWord) : DoubleWord :=
  widen (narrow bits)

end SinglePrecision

end CallBridge
