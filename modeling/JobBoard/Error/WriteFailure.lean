/-!
# Classes of failed writes

A failed write falls into one of five classes. The class is read off two numbers that the store
gives with an error, never off its wording: the extended code, and the primary code that is its low
byte unless the store says otherwise.
-/

namespace JobBoard

/-- The primary codes that matter. -/
inductive PrimaryCode where
  | constraint
  | mismatch
  | interrupted
  | busy
  | other
  deriving DecidableEq, Repr

/-- The primary code in the low byte of an extended code. -/
def PrimaryCode.ofExtended (code : Int) : PrimaryCode :=
  let low := code % 256
  if low = 19 then .constraint
  else if low = 20 then .mismatch
  else if low = 9 then .interrupted
  else if low = 5 then .busy
  else .other

/-- The class of a failed write. -/
inductive WriteFailure where
  | uniqueViolation
  | notNullViolation
  | typeViolation
  | checkViolation
  | other
  deriving DecidableEq, Repr

namespace WriteFailure

/-- The class that two codes stand for. -/
def ofCodes (primary : PrimaryCode) (extended : Int) : WriteFailure :=
  match primary with
  | .constraint =>
    if extended = 2067 ∨ extended = 1555 then .uniqueViolation
    else if extended = 1299 then .notNullViolation
    else if extended = 3091 then .typeViolation
    else if extended = 275 then .checkViolation
    else .other
  | .mismatch => .typeViolation
  | _ => .other

/-- Whether the values, and not the store, are to blame. -/
def isBadInput : WriteFailure → Bool
  | .notNullViolation | .typeViolation | .checkViolation => true
  | .uniqueViolation | .other => false

/-- The description given to a caller. -/
def describe : WriteFailure → String
  | .uniqueViolation => "unique constraint violated"
  | .notNullViolation => "required value is missing"
  | .typeViolation => "value has the wrong data type"
  | .checkViolation => "value violates a check constraint"
  | .other => "unclassified store failure"

end WriteFailure

end JobBoard
