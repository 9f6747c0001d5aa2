/-!
# Rounding

Quotients of natural numbers rounded to the nearest whole number, a tie going to the even one, and
rounded in units of a power of two. Every number with a fraction that the store reads or writes is
rounded here and nowhere else.
-/

namespace JobBoard.Number

/-- The whole number nearest to a quotient; of two that are equally near, the even one. -/
def roundEven (num den : Nat) : Nat :=
  let q := num / den
  let r := num % den
  if den < 2 * r then q + 1
  else if den = 2 * r ∧ q % 2 = 1 then q + 1
  else q

/-- The greatest `e` such that `2 ^ e` is at most a positive quotient. -/
def floorLog (num den : Nat) : Int :=
  let e : Int := (num.log2 : Int) - (den.log2 : Int)
  let reached :=
    if e < 0 then den ≤ num * Nat.pow 2 e.natAbs else den * Nat.pow 2 e.natAbs ≤ num
  if reached then e else e - 1

/-- A quotient in units of `2 ^ scale`, rounded. -/
def roundAt (num den : Nat) (scale : Int) : Nat :=
  if scale < 0 then roundEven (num * Nat.pow 2 scale.natAbs) den
  else roundEven num (den * Nat.pow 2 scale.natAbs)

/-- `10 ^ exponent` as a numerator and a denominator. -/
def powerOfTen (exponent : Int) : Nat × Nat :=
  if exponent < 0 then (1, Nat.pow 10 exponent.natAbs) else (Nat.pow 10 exponent.natAbs, 1)

/-- The value of decimal digits as long as it is below a bound; beyond that, some value that is not.
-/
def digitsValue (bound : Nat) (ds : List Char) : Nat :=
  ds.foldl (fun n d => if n < bound then n * 10 + (d.toNat - '0'.toNat) else n) 0

end JobBoard.Number
