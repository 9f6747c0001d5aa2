import JobBoard.Number.Wide

/-!
# Cells

The values that can stand in a column, and what a column makes of them. A column of whole numbers
accepts a text or a fraction that denotes a whole number exactly; a text column turns numbers into
their text.
-/

namespace JobBoard.Store

open Number

/-- A value of the store. -/
inductive Cell where
  | null
  | integer (n : Int)
  | real (x : Binary64)
  | text (s : String)
  | blob (bytes : List Nat)
  deriving DecidableEq, Repr

/-- The type of a column. -/
inductive ColumnType where
  | integer
  | text
  deriving DecidableEq, Repr

/-- The type of a column, spelled as in the schema. -/
def ColumnType.name : ColumnType → String
  | .integer => "INTEGER"
  | .text => "TEXT"

/-- The type of a value, as errors spell it. -/
def Cell.typeName : Cell → String
  | .null => "NULL"
  | .integer _ => "INT"
  | .real _ => "REAL"
  | .text _ => "TEXT"
  | .blob _ => "BLOB"

/-- The spaces that may surround a number in a text. -/
def isNumberSpace (c : Char) : Bool := c == ' ' || (9 ≤ c.toNat && c.toNat ≤ 13)

/-- An optional sign: whether it was a minus, and what follows. -/
def takeSign : List Char → Bool × List Char
  | '-' :: rest => (true, rest)
  | '+' :: rest => (false, rest)
  | rest => (false, rest)

/-- The decimal digits at the front, and what follows. -/
def takeDigits (cs : List Char) : List Char × List Char := cs.span Char.isDigit

/-- The least row id: ids have 64 bits with a sign. -/
def leastId : Int := -9223372036854775808

/-- The greatest row id. -/
def greatestId : Int := 9223372036854775807

/-- Whether a whole number fits a cell. -/
def fitsCell (n : Int) : Bool := leastId ≤ n && n ≤ greatestId

/-- A bound above all whole numbers that fit a cell. -/
def wholeBound : Nat := 100000000000000000000

/-- The value of the digits of an exponent; beyond four digits it no longer matters. -/
def exponentValue (ds : List Char) : Nat :=
  ds.foldl (fun n d => if n < 10000 then n * 10 + (d.toNat - '0'.toNat) else 10000) 0

/-- The exponent part of a number: its value and what follows; none when it is broken. -/
def takeExponent : List Char → Option (Int × List Char)
  | c :: rest =>
    if c == 'e' || c == 'E' then
      let (negative, rest) := takeSign rest
      let (ds, rest) := takeDigits rest
      if ds.isEmpty then none
      else some ((if negative then -(exponentValue ds : Int) else exponentValue ds), rest)
    else some (0, c :: rest)
  | [] => some (0, [])

/-- The number that a text denotes, if the whole text is one: a whole number when written without
point and exponent and in range, a binary number otherwise. -/
def numberOfText? (s : String) : Option Cell :=
  let (negative, cs) := takeSign (s.toList.dropWhile isNumberSpace)
  let (ints, rest) := takeDigits cs
  let (fracs, rest, pointed) :=
    match rest with
    | '.' :: rest => ((takeDigits rest).1, (takeDigits rest).2, true)
    | _ => ([], rest, false)
  match takeExponent rest with
  | none => none
  | some (e, after) =>
    if (ints ++ fracs).isEmpty || !(after.all isNumberSpace) then none
    else
      let plain := !pointed && after.length == rest.length
      let n : Int := digitsValue wholeBound ints
      let n := if negative then -n else n
      if plain && fitsCell n then some (.integer n)
      else some (.real (.ofDigits negative ints fracs e))

/-- A fraction that is a whole number, as a whole number. -/
def Cell.wholeIfExact : Cell → Cell
  | .real x =>
    match x.whole? with
    | some n => .integer n
    | none => .real x
  | c => c

/-- What a column makes of a value before it looks at its type. -/
def ColumnType.adapt : ColumnType → Cell → Cell
  | .integer, .text s =>
    match numberOfText? s with
    | some c => c.wholeIfExact
    | none => .text s
  | .integer, c => c.wholeIfExact
  | .text, .integer n => .text (toString n)
  | .text, .real x => .text x.text
  | .text, c => c

/-- Whether an adapted value may stand in a column; the missing value may, as far as types go. -/
def ColumnType.accepts : ColumnType → Cell → Bool
  | _, .null => true
  | .integer, .integer _ => true
  | .text, .text _ => true
  | _, _ => false

/-- Equality as the store compares values: by value among numbers of either type; a missing value
equals nothing. -/
def Cell.equals : Cell → Cell → Bool
  | .null, _ => false
  | _, .null => false
  | .integer n, .real x => x.integral? == some n
  | .real x, .integer n => x.integral? == some n
  | .real x, .real y => x == y || (x.significand == 0 && y.significand == 0)
  | a, b => a == b

end JobBoard.Store
