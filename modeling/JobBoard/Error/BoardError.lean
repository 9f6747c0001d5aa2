import JobBoard.Error.StoreError

/-!
# Errors of the board

What a caller of the board sees. Input that the store rejects is the caller's fault; everything else
that goes wrong in the store is internal and keeps the store's error as its source.
-/

namespace JobBoard

/-- The coarse kind of an error. -/
inductive ErrorKind where
  | notFound
  | alreadyExists
  | badRequest
  | internal
  deriving DecidableEq, Repr

/-- The kind as it appears in events and log lines. -/
def ErrorKind.text : ErrorKind → String
  | .notFound => "not_found"
  | .alreadyExists => "already_exists"
  | .badRequest => "bad_request"
  | .internal => "internal"

/-- An error of the board. -/
inductive BoardError where
  | notFound (message : String)
  | alreadyExists (message : String)
  | badRequest (message : String)
  | internal (context : String) (source : Option StoreError)
  deriving DecidableEq, Repr

namespace BoardError

/-- The kind. -/
def kind : BoardError → ErrorKind
  | notFound _ => .notFound
  | alreadyExists _ => .alreadyExists
  | badRequest _ => .badRequest
  | internal .. => .internal

/-- The wording. -/
def message : BoardError → String
  | notFound text => "not found: " ++ text
  | alreadyExists text => "already exists: " ++ text
  | badRequest text => "bad request: " ++ text
  | internal context (some source) => context ++ ": " ++ source.message
  | internal context none => context

/-- The store's error behind an internal error. -/
def source? : BoardError → Option StoreError
  | internal _ source => source
  | _ => none

/-- The class of the failed write behind an internal error. -/
def writeFailure? (e : BoardError) : Option WriteFailure := e.source?.map StoreError.writeFailure

/-- A failed write: a bad request when the values are to blame, internal otherwise. -/
def ofFailedWrite (context : String) (e : StoreError) : BoardError :=
  if e.writeFailure.isBadInput then .badRequest (context ++ ": " ++ e.writeFailure.describe)
  else .internal context (some e)

/-- A store error outside any named activity. -/
def ofStoreError (e : StoreError) : BoardError := .internal "storage failure" (some e)

end BoardError

end JobBoard
