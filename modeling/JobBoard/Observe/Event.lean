import JobBoard.Error.BoardError
import JobBoard.Model.EdgeKind
import JobBoard.Observe.Level
import JobBoard.Text.OneLine

/-!
# Events

What an operation tells whoever observes it, and the log lines that come of it. Lines hold kinds,
counts, the request id and errors, never a name or a text that was searched for.
-/

namespace JobBoard.Observe

/-- The operations that are announced. -/
inductive Operation where
  | resolve
  | resolveAll
  | associate
  | listAssociations
  | clearAssociations
  | lookupRead
  | search
  deriving DecidableEq, Repr

namespace Operation

/-- All operations. -/
def all : List Operation :=
  [.resolve, .resolveAll, .associate, .listAssociations, .clearAssociations, .lookupRead, .search]

/-- The name of an operation in log lines. -/
def text : Operation → String
  | .resolve => "lookup_resolve"
  | .resolveAll => "lookup_resolve_all"
  | .associate => "association_add"
  | .listAssociations => "association_list"
  | .clearAssociations => "association_clear"
  | .lookupRead => "lookup_read"
  | .search => "vacancy_search"

end Operation

/-- What an observer is told. -/
inductive Event where
  | called (op : Operation)
  | retried (d : Dictionary)
  | failed (op : Operation) (e : BoardError)
  | rollbackFailed (op : Operation) (e : StoreError)
  deriving DecidableEq, Repr

/-- The most characters of an error that a log line quotes. -/
def quotedErrorLimit : Nat := 240

/-- The line that the default observer writes about an event. -/
def Event.line (requestId : String) : Event → Line
  | .called op =>
    ⟨.debug, "event=" ++ op.text ++ " module=repo status=start request_id=" ++ requestId⟩
  | .retried d =>
    ⟨.info, "event=lookup_resolve module=repo status=conflict_retry kind=" ++ d.text ++
      " request_id=" ++ requestId⟩
  | .failed op e =>
    ⟨if e.kind = .internal then .error else .warn,
      "event=" ++ op.text ++ " module=repo status=error error_kind=" ++ e.kind.text ++
        " request_id=" ++ requestId ++ " error=" ++ Text.oneLine quotedErrorLimit e.message⟩
  | .rollbackFailed op e =>
    ⟨.error, "event=" ++ op.text ++ " module=repo status=rollback_failed request_id=" ++
      requestId ++ " error=" ++ Text.oneLine quotedErrorLimit e.message⟩

/-- The short record of an event that a recording observer keeps. -/
def Event.record (requestId : String) : Event → String
  | .called op => "call:" ++ op.text ++ ":" ++ requestId
  | .retried d => "retry:" ++ d.text ++ ":" ++ requestId
  | .failed op e => "error:" ++ op.text ++ ":" ++ e.kind.text ++ ":" ++ requestId
  | .rollbackFailed op e =>
    "rollback_failure:" ++ op.text ++ ":" ++ requestId ++ ":" ++ e.message

/-- How a database is opened, as the log puts it. -/
inductive OpenMode where
  | file
  | memory
  deriving DecidableEq, Repr

/-- The name of a mode. -/
def OpenMode.text : OpenMode → String
  | .file => "file"
  | .memory => "memory"

/-- What happened during a call, in order: events for the observer and remarks for the log alone. -/
inductive Note where
  | event (e : Event)
  | edgesAdded (k : EdgeKind) (requested skipped : Nat)
  | searched (arguments rows : Nat)
  | opening (mode : OpenMode)
  | opened (mode : OpenMode)
  | openFailed (mode : OpenMode) (duringSetup : Bool) (e : StoreError)
  deriving DecidableEq, Repr

/-- A duration or a place that is not told. -/
def untold : String := "*"

/-- The line of a note. -/
def Note.line (requestId : String) : Note → Line
  | .event e => e.line requestId
  | .edgesAdded k requested skipped =>
    ⟨.debug, "event=association_add module=repo status=ok table=" ++ k.text ++ " requested=" ++
      toString requested ++ " skipped=" ++ toString skipped ++ " request_id=" ++ requestId⟩
  | .searched arguments rows =>
    ⟨.debug, "event=vacancy_search module=search status=ok args=" ++ toString arguments ++
      " rows=" ++ toString rows ++ " request_id=" ++ requestId⟩
  | .opening mode => ⟨.info, "event=db_open module=db status=start mode=" ++ mode.text⟩
  | .opened mode =>
    ⟨.info, "event=db_open module=db status=ok mode=" ++ mode.text ++ " duration_ms=" ++ untold⟩
  | .openFailed mode duringSetup e =>
    ⟨.error, "event=db_open module=db status=error mode=" ++ mode.text ++
      " duration_ms=" ++ untold ++ " error_code=" ++
      (if duringSetup then "db_bootstrap_failed" else "db_open_failed") ++
      " error=" ++ e.message⟩

/-- The events among the notes. -/
def events (notes : List Note) : List Event :=
  notes.filterMap fun
    | .event e => some e
    | _ => none

/-- The lines of the notes; events are logged only if the observer is the default one. -/
def lines (logsEvents : Bool) (requestId : String) (notes : List Note) : List Line :=
  notes.filterMap fun
    | .event e => if logsEvents then some (e.line requestId) else none
    | note => some (note.line requestId)

end JobBoard.Observe
