import JobBoard.Number.Binary64

/-!
# Wire values

The values that callers exchange with the board: JSON values in which a number written without point
and exponent is told apart from every other number, since only the former can be an id, a count or a
page size. It is whole as long as it fits 64 bits, with or without a sign.
-/

namespace JobBoard.Wire

/-- A value as it is exchanged with callers. -/
inductive Value where
  | null
  | flag (b : Bool)
  /-- A number written without point and exponent. -/
  | whole (n : Int)
  /-- Any other number. -/
  | real (x : Number.Binary64)
  | text (s : String)
  | list (vs : List Value)
  | record (fields : List (String × Value))
  deriving Repr, Inhabited

namespace Value

/-- The text of a text. -/
def text? : Value → Option String
  | .text s => some s
  | _ => none

/-- The truth value of a flag. -/
def flag? : Value → Option Bool
  | .flag b => some b
  | _ => none

/-- A whole number within bounds. -/
def wholeWithin? (least greatest : Int) : Value → Option Int
  | .whole n => if least ≤ n ∧ n ≤ greatest then some n else none
  | _ => none

/-- An id, a salary or a time. -/
def id? : Value → Option Int :=
  wholeWithin? (-9223372036854775808) 9223372036854775807

/-- A number that fits 32 bits with a sign. -/
def int32? : Value → Option Int := wholeWithin? (-2147483648) 2147483647

/-- A page size, an offset or a version. -/
def count32? (v : Value) : Option Nat := (v.wholeWithin? 0 4294967295).map Int.toNat

/-- A number of milliseconds, or a count of steps. -/
def count64? (v : Value) : Option Nat :=
  (v.wholeWithin? 0 18446744073709551615).map Int.toNat

/-- A list whose members all have a shape. -/
def listOf? {α : Type} (shape : Value → Option α) : Value → Option (List α)
  | .list vs => vs.mapM shape
  | _ => none

/-- A value that may be missing: `null` stands for nothing. -/
def orNull? {α : Type} (shape : Value → Option α) : Value → Option (Option α)
  | .null => some none
  | v => (shape v).map some

/-- The value of the last field of a name, as later fields overrule earlier ones. -/
def field? (v : Value) (name : String) : Option Value :=
  match v with
  | .record fields => (fields.reverse.find? (·.1 == name)).map (·.2)
  | _ => none

/-- The values of the fields of a record with known field names, where present. A record may also be
written as the list of its fields' values in order, from which the last ones may be missing. -/
def parts? (names : List String) : Value → Option (List (Option Value))
  | .record fields => some (names.map (Value.record fields).field?)
  | .list vs =>
    if vs.length ≤ names.length then
      some (vs.map some ++ List.replicate (names.length - vs.length) none)
    else none
  | _ => none

/-- One of a closed list of values by its name. The name may also be the only field of a record that
has nothing to say about it. -/
def oneOf? {α : Type} (name : α → String) (all : List α) : Value → Option α
  | .text s => all.find? (name · == s)
  | .record [(s, .null)] => all.find? (name · == s)
  | _ => none

/-- A field that has to be there. -/
def needed {α : Type} (shape : Value → Option α) (v : Option Value) : Option α := v.bind shape

/-- A field that may be left out. -/
def orElse {α : Type} (default : α) (shape : Value → Option α) : Option Value → Option α
  | none => some default
  | some v => shape v

/-- A field that may be left out or be `null`. -/
def possibly {α : Type} (shape : Value → Option α) : Option Value → Option (Option α) :=
  orElse none (orNull? shape)

/-- A value that may be missing, written out. -/
def ofOption {α : Type} (write : α → Value) : Option α → Value
  | none => .null
  | some a => write a

/-- A list written out. -/
def ofList {α : Type} (write : α → Value) (as : List α) : Value := .list (as.map write)

end Value

end JobBoard.Wire
