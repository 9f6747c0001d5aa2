import JobBoard.Number.Rounding

/-!
# Binary floating point numbers

Numbers with a fraction, in 64 bits: a sign, an exponent and 53 significant bits. All arithmetic is
exact on natural numbers and rounded once, at its end.
-/

namespace JobBoard.Number

/-- A binary floating point number, as its 64 bits. -/
structure Binary64 where
  bits : UInt64
  deriving DecidableEq, Repr

namespace Binary64

/-- The number of a sign and 63 bits. -/
def ofParts (negative : Bool) (low : Nat) : Binary64 :=
  ⟨UInt64.ofNat (low + if negative then Nat.pow 2 63 else 0)⟩

/-- The bits of infinity, without its sign. -/
def infinityBits : Nat := 2047 * Nat.pow 2 52

/-- The number nearest to a quotient; infinity when the quotient is out of range. Counting units of
the scale from the least one on makes the exponent field and the significand a single number. -/
def ofRatio (negative : Bool) (num den : Nat) : Binary64 :=
  if num = 0 then ofParts negative 0
  else
    let scale := max (floorLog num den - 52) (-1074)
    let low := (scale + 1074).toNat * Nat.pow 2 52 + roundAt num den scale
    ofParts negative (min low infinityBits)

/-- The sign bit. -/
def isNegative (x : Binary64) : Bool := x.bits.toNat / Nat.pow 2 63 == 1

/-- The exponent field. -/
def exponentField (x : Binary64) : Nat := x.bits.toNat / Nat.pow 2 52 % Nat.pow 2 11

/-- The integer `m` such that the absolute value is `m * 2 ^ scale`. -/
def significand (x : Binary64) : Nat :=
  let low := x.bits.toNat % Nat.pow 2 52
  if x.exponentField = 0 then low else low + Nat.pow 2 52

/-- The power of two that scales the significand. -/
def scale (x : Binary64) : Int :=
  (if x.exponentField = 0 then 1 else (x.exponentField : Int)) - 1075

/-- Whether the number is neither infinite nor undefined. -/
def isFinite (x : Binary64) : Bool := x.exponentField != 2047

/-- The numerator and the denominator of the absolute value. -/
def fraction (x : Binary64) : Nat × Nat :=
  if x.scale < 0 then (x.significand, Nat.pow 2 x.scale.natAbs)
  else (x.significand * Nat.pow 2 x.scale.natAbs, 1)

/-- The whole number that this is, if it is one. -/
def integral? (x : Binary64) : Option Int :=
  let (num, den) := x.fraction
  if x.isFinite && num % den == 0 then
    some (if x.isNegative then -((num / den : Nat) : Int) else ((num / den : Nat) : Int))
  else none

/-- The whole number that this is, when it lies strictly inside the range of a row id. -/
def whole? (x : Binary64) : Option Int :=
  x.integral?.filter fun n => n.natAbs < 9223372036854775807

/-- The product of an absolute value and a quotient, rounded; the sign stays. -/
def scaled (x : Binary64) (num den : Nat) : Binary64 :=
  let (n, d) := x.fraction
  ofRatio x.isNegative (n * num) (d * den)

/-- The product with the number nearest to a power of ten. -/
def timesPower (x : Binary64) (exponent : Nat) : Binary64 :=
  let (n, d) := (ofRatio false (Nat.pow 10 exponent) 1).fraction
  x.scaled n d

/-- The quotient by the number nearest to a power of ten. -/
def overPower (x : Binary64) (exponent : Nat) : Binary64 :=
  let (n, d) := (ofRatio false (Nat.pow 10 exponent) 1).fraction
  x.scaled d n

/-- The absolute value as `digits * 10 ^ exponent`, without rounding: a power of two below one is a
power of five over a power of ten. -/
def decimal (x : Binary64) : Nat × Int :=
  if x.scale < 0 then (x.significand * Nat.pow 5 x.scale.natAbs, x.scale)
  else (x.significand * Nat.pow 2 x.scale.natAbs, 0)

end Binary64

end JobBoard.Number
