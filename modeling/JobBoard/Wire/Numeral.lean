import JobBoard.Number.Binary64

/-!
# Numerals on the wire

The number that a numeral with a point, an exponent or too many digits denotes. Its digits fill a
significand of 64 bits as far as they fit; what finds no room counts as places before the point and
for nothing behind it. The significand and the power of ten that is left are each rounded, and so is
their product or quotient. A numeral whose number is out of range denotes nothing.
-/

namespace JobBoard.Wire

open Number

/-- The greatest significand. -/
def significandLimit : Nat := 18446744073709551615

/-- A significand filled with digits as far as they fit, and the digits that are left. -/
def fillSignificand (n : Nat) : List Char → Nat × List Char
  | [] => (n, [])
  | d :: rest =>
    let next := n * 10 + (d.toNat - '0'.toNat)
    if significandLimit < next then (n, d :: rest) else fillSignificand next rest

/-- The greatest power of ten that is applied in one step. -/
def greatestPower : Nat := 308

/-- A number times a power of ten, if that is in range. -/
def raised? (x : Binary64) (places : Nat) : Option Binary64 :=
  if x.significand = 0 then some x
  else if greatestPower < places then none
  else some (x.timesPower places) |>.filter Binary64.isFinite

/-- A number over a power of ten, in at most two steps: whatever is left of a significand after them
is zero. -/
def lowered (x : Binary64) (places : Nat) : Binary64 :=
  if places ≤ greatestPower then x.overPower places
  else if places ≤ 2 * greatestPower then
    (x.overPower greatestPower).overPower (places - greatestPower)
  else .ofRatio x.isNegative 0 1

/-- The number of a numeral: digits before the point, digits behind it, and the power of ten. -/
def numeral? (negative : Bool) (ints fracs : List Char) (power : Int) : Option Binary64 :=
  let (n, left) := fillSignificand 0 ints
  let (n, lost) := fillSignificand n fracs
  let places : Int := power + left.length - (fracs.length - lost.length : Nat)
  let x := Binary64.ofRatio negative n 1
  if 0 ≤ places then raised? x places.natAbs else some (lowered x places.natAbs)

end JobBoard.Wire
