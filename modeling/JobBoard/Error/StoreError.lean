import JobBoard.Cancel.Reason
import JobBoard.Error.Refusal
import JobBoard.Model.Vacancy

/-!
# Store errors

What a call on the store can end in instead of an answer: a fault of the store, a schema from the
future, or a token that fired.
-/

namespace JobBoard

/-- A fault that the store, or the reading of its answer, came back with. -/
inductive StoreFault where
  /-- The store refused, for a cause that is known. -/
  | refused (cause : Refusal)
  /-- The store failed; its codes and its words are all there is. -/
  | reported (primary : PrimaryCode) (extended : Int) (message : String)
  /-- A value could not be handed to the store. -/
  | unbindable (message : String)
  /-- A row was expected and none came. -/
  | noRow
  /-- A query would have written. -/
  | notReadOnly
  /-- A write handed back rows. -/
  | unexpectedRows
  /-- A column holds a text that names no value of its list. -/
  | unreadable (column : Nat) (cause : UnknownValue)
  /-- A number does not fit the type it is read as. -/
  | outOfRange (column : Nat) (value : Int)
  /-- The path of a file holds a NUL. -/
  | nulInPath (position : Nat)
  deriving DecidableEq, Repr

namespace StoreFault

/-- The wording. -/
def message : StoreFault → String
  | refused cause => cause.message
  | reported _ _ text => text
  | unbindable text => text
  | noRow => "Query returned no rows"
  | notReadOnly => "Query is not read-only"
  | unexpectedRows => "Execute returned results - did you mean to call query?"
  | unreadable column cause =>
    "Conversion error from type Text at index: " ++ toString column ++ ", " ++ cause.message
  | outOfRange column value =>
    "Integer " ++ toString value ++ " out of range at index " ++ toString column
  | nulInPath position => "nul byte found in provided data at position: " ++ toString position

/-- The primary and the extended code, where the store gave them. -/
def codes? : StoreFault → Option (PrimaryCode × Int)
  | refused cause => some (.ofExtended cause.code, cause.code)
  | reported primary extended _ => some (primary, extended)
  | _ => none

/-- The class of a failed write. -/
def writeFailure (f : StoreFault) : WriteFailure :=
  match f with
  | unbindable _ => .typeViolation
  | _ =>
    match f.codes? with
    | some (primary, extended) => .ofCodes primary extended
    | none => .other

/-- Whether the statement was interrupted. -/
def isInterrupt (f : StoreFault) : Bool :=
  match f.codes? with
  | some (.interrupted, _) => true
  | _ => false

end StoreFault

/-- Why a call on the store gave no answer. -/
inductive StoreError where
  | fault (f : StoreFault)
  | newerSchema (found latest : Int)
  | abandoned (reason : Cancel.Reason)
  deriving DecidableEq, Repr

namespace StoreError

/-- A refusal as the error of a call. -/
def refused (cause : Refusal) : StoreError := .fault (.refused cause)

/-- The wording. -/
def message : StoreError → String
  | fault f => f.message
  | newerSchema found latest =>
    "database schema version " ++ toString found ++ " is newer than supported " ++ toString latest
  | abandoned reason => "store call abandoned: " ++ reason.text

/-- The class of a failed write. -/
def writeFailure : StoreError → WriteFailure
  | fault f => f.writeFailure
  | newerSchema .. | abandoned _ => .other

/-- Whether the call was given up because its token fired. -/
def isCancellation : StoreError → Bool
  | fault f => f.isInterrupt
  | newerSchema .. => false
  | abandoned _ => true

/-- The fault behind the error. -/
def source? : StoreError → Option StoreFault
  | fault f => some f
  | newerSchema .. | abandoned _ => none

end StoreError

end JobBoard
