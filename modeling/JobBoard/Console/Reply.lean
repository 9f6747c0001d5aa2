import JobBoard.Error.BoardError
import JobBoard.Logging
import JobBoard.Model.Dictionary
import JobBoard.Store.Cell

/-!
# Replies

What a command of the console answers: a value of one of a few shapes, or a failure of one of the
layers below.
-/

namespace JobBoard.Console

/-- The answer to a command. -/
inductive Reply where
  | done
  | flag (b : Bool)
  | number (n : Int)
  | text (s : String)
  | optionalNumber (n : Option Int)
  | numbers (ns : List Int)
  | texts (ss : List String)
  | cell (c : Store.Cell)
  | rows (rs : List (List Store.Cell))
  | entry (e : Entry)
  | entries (es : List Entry)
  | summaries (vs : List VacancySummary)
  | status (a : Option Logging.Active)
  /-- A command that makes no sense. -/
  | meaningless
  | boardFailed (e : BoardError)
  | storeFailed (e : StoreError)
  | statementFailed (f : StoreFault)
  | loggingFailed (r : Logging.Refused)
  deriving DecidableEq, Repr

/-- The reply for an outcome of the board. -/
def Reply.ofBoard {α : Type} (f : α → Reply) : Except BoardError α → Reply
  | .ok a => f a
  | .error e => .boardFailed e

/-- The reply for an outcome of the store. -/
def Reply.ofStore {α : Type} (f : α → Reply) : Except StoreError α → Reply
  | .ok a => f a
  | .error e => .storeFailed e

/-- The reply to a statement of the console's own that was refused. -/
def Reply.refused (cause : Refusal) : Reply := .statementFailed (.refused cause)

/-- The reply for a statement of the console's own. -/
def Reply.ofStatement {α : Type} (f : α → Reply) : Except Refusal α → Reply
  | .ok a => f a
  | .error cause => .refused cause

end JobBoard.Console
