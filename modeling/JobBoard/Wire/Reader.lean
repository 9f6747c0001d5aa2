import JobBoard.Number.Rounding
import JobBoard.Wire.Numeral
import JobBoard.Wire.Value

/-!
# Reading wire values

A value is read from a text by recursion on the characters; each function returns what it read and
what is left. The count that bounds the recursion starts above the length of the text, and every
step consumes a character, so it is never what ends the reading of a value. A second count bounds
the levels of lists and records inside one another.
-/

namespace JobBoard.Wire

open Number

/-- Whether a character may stand between the parts of a value. -/
def isGap (c : Char) : Bool := c == ' ' || c == '\t' || c == '\n' || c == '\r'

/-- The text behind its first gap. -/
def skipGap (cs : List Char) : List Char := cs.dropWhile isGap

/-- The value of a hexadecimal digit. -/
def hexDigit? (c : Char) : Option Nat :=
  if c.isDigit then some (c.toNat - '0'.toNat)
  else if 'a' ≤ c ∧ c ≤ 'f' then some (c.toNat - 'a'.toNat + 10)
  else if 'A' ≤ c ∧ c ≤ 'F' then some (c.toNat - 'A'.toNat + 10)
  else none

/-- Four hexadecimal digits. -/
def readUnit : List Char → Option (Nat × List Char)
  | a :: b :: c :: d :: rest => do
    let a ← hexDigit? a
    let b ← hexDigit? b
    let c ← hexDigit? c
    let d ← hexDigit? d
    some (((a * 16 + b) * 16 + c) * 16 + d, rest)
  | _ => none

/-- The character of one unit, or of two that make a pair. -/
def readCodePoint (cs : List Char) : Option (Char × List Char) := do
  let (high, rest) ← readUnit cs
  if 0xD800 ≤ high ∧ high < 0xDC00 then
    match rest with
    | '\\' :: 'u' :: rest =>
      let (low, rest) ← readUnit rest
      if 0xDC00 ≤ low ∧ low < 0xE000 then
        some (Char.ofNat (0x10000 + (high - 0xD800) * 0x400 + (low - 0xDC00)), rest)
      else none
    | _ => none
  else if 0xDC00 ≤ high ∧ high < 0xE000 then none
  else some (Char.ofNat high, rest)

/-- The character that stands behind a backslash. -/
def readEscape : List Char → Option (Char × List Char)
  | '"' :: rest => some ('"', rest)
  | '\\' :: rest => some ('\\', rest)
  | '/' :: rest => some ('/', rest)
  | 'b' :: rest => some ('\x08', rest)
  | 'f' :: rest => some ('\x0c', rest)
  | 'n' :: rest => some ('\n', rest)
  | 'r' :: rest => some ('\r', rest)
  | 't' :: rest => some ('\t', rest)
  | 'u' :: rest => readCodePoint rest
  | _ => none

/-- A text up to its closing quote, behind what was read of it already. -/
def readText : Nat → String → List Char → Option (String × List Char)
  | 0, _, _ => none
  | _ + 1, _, [] => none
  | n + 1, done, c :: rest =>
    if c == '"' then some (done, rest)
    else if c == '\\' then
      match readEscape rest with
      | some (c, rest) => readText n (done.push c) rest
      | none => none
    else if c.toNat < 0x20 then none
    else readText n (done.push c) rest

/-- The decimal digits at the front, of which there has to be one, and what follows. -/
def readDigits (cs : List Char) : Option (List Char × List Char) :=
  match cs.span Char.isDigit with
  | ([], _) => none
  | found => some found

/-- The fraction digits of a number, none if it has no point. -/
def readFraction : List Char → Option (List Char × List Char)
  | '.' :: rest => readDigits rest
  | rest => some ([], rest)

/-- A bound above all exponents that matter. -/
def exponentBound : Nat := 1000000000

/-- The power of ten that digits denote behind a sign. -/
def readPower (negative : Bool) (cs : List Char) : Option (Option Int × List Char) := do
  let (ds, rest) ← readDigits cs
  let n : Int := digitsValue exponentBound ds
  some (some (if negative then -n else n), rest)

/-- The exponent of a number, if it has one. -/
def readExponent : List Char → Option (Option Int × List Char)
  | c :: rest =>
    if c == 'e' || c == 'E' then
      match rest with
      | '-' :: rest => readPower true rest
      | '+' :: rest => readPower false rest
      | rest => readPower false rest
    else some (none, c :: rest)
  | [] => some (none, [])

/-- The number of a numeral without point and exponent. A minus in front of zero makes a number that
is not whole, and so do more digits than fit. -/
def plainNumber? (negative : Bool) (ints : List Char) : Option Value :=
  let n := digitsValue (significandLimit + 1) ints
  let isWhole := if negative then n != 0 && n ≤ 9223372036854775808 else n ≤ significandLimit
  if isWhole then some (.whole (if negative then -(n : Int) else n))
  else (numeral? negative ints [] 0).map .real

/-- A number behind its sign. -/
def readUnsigned (negative : Bool) (cs : List Char) : Option (Value × List Char) := do
  let (ints, rest) ← readDigits cs
  if ints.length > 1 ∧ ints.head? = some '0' then none
  else
    let (fracs, rest) ← readFraction rest
    let (power, rest) ← readExponent rest
    let value ←
      if fracs.isEmpty && power.isNone then plainNumber? negative ints
      else (numeral? negative ints fracs (power.getD 0)).map .real
    some (value, rest)

/-- A number. -/
def readNumber : List Char → Option (Value × List Char)
  | '-' :: rest => readUnsigned true rest
  | rest => readUnsigned false rest

mutual

/-- A value, with so many levels left. -/
def readValue : Nat → Nat → List Char → Option (Value × List Char)
  | 0, _, _ => none
  | n + 1, depth, cs =>
    match skipGap cs, depth with
    | '"' :: rest, _ => (readText n "" rest).map fun (s, rest) => (.text s, rest)
    | '[' :: rest, depth + 1 =>
      match skipGap rest with
      | ']' :: rest => some (.list [], rest)
      | rest => readMembers n depth [] rest
    | '{' :: rest, depth + 1 =>
      match skipGap rest with
      | '}' :: rest => some (.record [], rest)
      | rest => readFields n depth [] rest
    | 'n' :: 'u' :: 'l' :: 'l' :: rest, _ => some (.null, rest)
    | 't' :: 'r' :: 'u' :: 'e' :: rest, _ => some (.flag true, rest)
    | 'f' :: 'a' :: 'l' :: 's' :: 'e' :: rest, _ => some (.flag false, rest)
    | rest, _ => readNumber rest

/-- The members of a list up to its end, behind those that were read already. -/
def readMembers : Nat → Nat → List Value → List Char → Option (Value × List Char)
  | 0, _, _, _ => none
  | n + 1, depth, done, cs =>
    match readValue n depth cs with
    | none => none
    | some (v, rest) =>
      match skipGap rest with
      | ',' :: rest => readMembers n depth (v :: done) rest
      | ']' :: rest => some (.list (v :: done).reverse, rest)
      | _ => none

/-- The fields of a record up to its end, behind those that were read already. -/
def readFields : Nat → Nat → List (String × Value) → List Char → Option (Value × List Char)
  | 0, _, _, _ => none
  | n + 1, depth, done, cs =>
    match skipGap cs with
    | '"' :: rest =>
      match readText n "" rest with
      | none => none
      | some (name, rest) =>
        match skipGap rest with
        | ':' :: rest =>
          match readValue n depth rest with
          | none => none
          | some (v, rest) =>
            match skipGap rest with
            | ',' :: rest => readFields n depth ((name, v) :: done) rest
            | '}' :: rest => some (.record ((name, v) :: done).reverse, rest)
            | _ => none
        | _ => none
    | _ => none

end

/-- The most levels of lists and records inside one another. -/
def depthLimit : Nat := 127

/-- The value that a whole text denotes. -/
def Value.read? (s : String) : Option Value :=
  let cs := s.toList
  match readValue (cs.length + 1) depthLimit cs with
  | some (v, rest) => if (skipGap rest).isEmpty then some v else none
  | none => none

end JobBoard.Wire
