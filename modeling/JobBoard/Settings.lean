/-!
# Settings

Bounds of a page, options of a connection, and the configuration that holds both.
-/

namespace JobBoard

/-- Bounds on the size of a page. -/
structure SearchLimits where
  defaultLimit : Nat := 20
  maxLimit : Nat := 100
  deriving DecidableEq, Repr

/-- The page size that a request gets: zero asks for the default, more than the maximum gets the
maximum. A maximum of zero counts as one and the default never exceeds the maximum, so every page
has room for a row. -/
def SearchLimits.normalize (l : SearchLimits) (requested : Nat) : Nat :=
  let most := max l.maxLimit 1
  if requested = 0 then min (max l.defaultLimit 1) most else min requested most

/-- Options of a connection. -/
structure DatabaseSettings where
  busyTimeoutMs : Nat := 5000
  wal : Bool := true
  deriving DecidableEq, Repr

/-- The level of detail of a log, unless told otherwise. -/
def defaultLogLevel : String := "debug"

/-- The configuration of the board. -/
structure Settings where
  logLevel : String := defaultLogLevel
  logDir : Option String := none
  database : DatabaseSettings := {}
  search : SearchLimits := {}
  deriving DecidableEq, Repr

/-- The version of the board, as it appears in the log. -/
def version : String := "0.1.0"

end JobBoard
