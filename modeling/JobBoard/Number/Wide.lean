import JobBoard.Number.Binary64

/-!
# Wide numbers

Numbers with 64 significant bits, in which the store works when it turns a number with a fraction
into text and back. A power of ten is applied in steps of hundred, ten and one decimal places, and
every step rounds; the text of a number and the number of a text are what these steps lead to.
-/

namespace JobBoard.Number

/-- A number `significand * 2 ^ scale` that is not negative. -/
structure Wide where
  significand : Nat
  scale : Int
  deriving DecidableEq, Repr

namespace Wide

/-- The nearest number to a quotient. -/
def ofRatio (num den : Nat) : Wide :=
  if num = 0 then ⟨0, 0⟩
  else
    let scale := floorLog num den - 63
    ⟨roundAt num den scale, scale⟩

/-- The number nearest to a power of ten. -/
def tenTo (exponent : Int) : Wide :=
  let (num, den) := powerOfTen exponent
  ofRatio num den

/-- The number as a numerator and a denominator. -/
def fraction (x : Wide) : Nat × Nat :=
  if x.scale < 0 then (x.significand, Nat.pow 2 x.scale.natAbs)
  else (x.significand * Nat.pow 2 x.scale.natAbs, 1)

/-- The product, rounded. -/
def times (x y : Wide) : Wide :=
  let r := ofRatio (x.significand * y.significand) 1
  ⟨r.significand, r.scale + x.scale + y.scale⟩

/-- The order of numbers. -/
def le (x y : Wide) : Bool :=
  let (a, b) := x.fraction
  let (c, d) := y.fraction
  a * d ≤ c * b

/-- The whole part. -/
def floor (x : Wide) : Nat := x.fraction.1 / x.fraction.2

/-- The absolute value of a binary number; it needs no rounding. -/
def ofBinary (x : Binary64) : Wide := ofRatio x.fraction.1 x.fraction.2

/-- The nearest binary number. -/
def toBinary (negative : Bool) (x : Wide) : Binary64 :=
  .ofRatio negative x.fraction.1 x.fraction.2

/-- The number moved by `count` times a number of decimal places. -/
def moved (x : Wide) (places : Int) (count : Nat) : Wide :=
  Nat.repeat (fun y : Wide => y.times (tenTo places)) count x

/-- The number moved by a number of decimal places, in the direction of a sign. -/
def shifted (x : Wide) (right : Bool) (places : Nat) : Wide :=
  let sign : Int := if right then -1 else 1
  ((x.moved (sign * 100) (places / 100)).moved (sign * 10) (places % 100 / 10)).moved sign
    (places % 10)

/-- Moves by decimal places as long as a test holds, at most so many times; counts the places on the
other side, so that the value in question stays `number * 10 ^ count`. -/
def moveWhile (test : Wide → Bool) (places : Int) : Nat → Wide × Int → Wide × Int
  | 0, s => s
  | fuel + 1, (x, count) =>
    if test x then moveWhile test places fuel (x.times (tenTo places), count - places)
    else (x, count)

/-- The most steps of one size that any binary number needs. -/
def stepLimit : Nat := 16

/-- A positive number moved until it has eighteen or nineteen digits before the point. -/
def digitsInFront (x : Wide) : Wide × Int :=
  let atLeast (e : Int) (y : Wide) : Bool := (tenTo e).le y
  let below (e : Int) (y : Wide) : Bool := !((tenTo e).le y)
  if atLeast 19 x then
    moveWhile (atLeast 19) (-1) stepLimit
      (moveWhile (atLeast 29) (-10) stepLimit (moveWhile (atLeast 119) (-100) stepLimit (x, 0)))
  else
    moveWhile (below 17) 1 stepLimit
      (moveWhile (below 7) 10 stepLimit (moveWhile (below (-97)) 100 stepLimit (x, 0)))

end Wide

/-- The significant digits that the store writes. -/
def writtenDigits : Nat := 15

/-- The significant digits of a positive number, fifteen of them, and the decimal exponent of the
first. A half is rounded upward. -/
def Binary64.significantDigits (x : Binary64) : Nat × Int :=
  let (y, count) := (Wide.ofBinary x).digitsInFront
  let n := y.floor
  let length := (toString n).length
  let kept := (n / Nat.pow 10 (length - writtenDigits - 1) + 5) / 10
  let e := (length : Int) + count - 1
  if kept = Nat.pow 10 writtenDigits then (Nat.pow 10 (writtenDigits - 1), e + 1) else (kept, e)

/-- The characters without the zeros at their end. -/
def dropLastZeros (cs : List Char) : List Char := (cs.reverse.dropWhile (· == '0')).reverse

/-- A fraction part: at least one digit. -/
def fractionDigits (cs : List Char) : List Char :=
  match dropLastZeros cs with
  | [] => ['0']
  | kept => kept

/-- Fifteen digits and the decimal exponent of the first as a text: positional for exponents from -4
up to 14, with a power of ten otherwise, and always with a point. -/
def positional (digits : Nat) (e : Int) : String :=
  let ds := (toString digits).toList
  if -4 ≤ e ∧ e < writtenDigits then
    if e < 0 then
      "0." ++ String.ofList (fractionDigits (List.replicate (e.natAbs - 1) '0' ++ ds))
    else
      let n := e.toNat + 1
      String.ofList (ds.take n) ++ "." ++ String.ofList (fractionDigits (ds.drop n))
  else
    let power := toString e.natAbs
    String.ofList (ds.take 1) ++ "." ++ String.ofList (fractionDigits (ds.drop 1)) ++ "e" ++
      (if e < 0 then "-" else "+") ++ (if power.length < 2 then "0" ++ power else power)

/-- The text of a number. Zero has no sign. -/
def Binary64.text (x : Binary64) : String :=
  if x.significand = 0 then "0.0"
  else
    let (digits, e) := x.significantDigits
    (if x.isNegative then "-" else "") ++ positional digits e

/-- The bound below which a significand still takes a digit. -/
def digitRoom : Nat := 1844674407370955160

/-- A significand and the decimal places that were left out of it or taken into it. Digits before
the point that find no room count as places; those behind the point are dropped. -/
def gatherDigits (behindPoint : Bool) (ds : List Char) (s : Nat × Int) : Nat × Int :=
  ds.foldl
    (fun (n, places) d =>
      if n < digitRoom then
        (n * 10 + (d.toNat - '0'.toNat), if behindPoint then places - 1 else places)
      else (n, if behindPoint then places else places + 1))
    s

/-- Decimal places taken into a significand, as long as it has room. -/
def absorbPlaces : Nat → Nat → Nat × Nat
  | 0, n => (n, 0)
  | e + 1, n => if n ≤ digitRoom then absorbPlaces e (n * 10) else (n, e + 1)

/-- Decimal places behind the point taken from the zeros at the end of a significand. -/
def stripPlaces : Nat → Nat → Nat × Nat
  | 0, n => (n, 0)
  | e + 1, n => if n % 10 = 0 then stripPlaces e (n / 10) else (n, e + 1)

/-- The number that a text in decimal notation denotes: digits before the point, digits behind it,
and the power of ten. -/
def Binary64.ofDigits (negative : Bool) (ints fracs : List Char) (power : Int) : Binary64 :=
  let (n, places) := gatherDigits true fracs (gatherDigits false ints (0, 0))
  let e := power + places
  let (n, left) := if 0 < e then absorbPlaces e.natAbs n else stripPlaces e.natAbs n
  if left = 0 then .ofRatio negative n 1
  else ((Wide.ofRatio n 1).shifted (decide (e < 0)) left).toBinary negative

end JobBoard.Number
