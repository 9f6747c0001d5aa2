import JobBoard.Error.WriteFailure

/-!
# Refusals

The causes for which the store refuses a statement. Each has one code and one wording.
-/

namespace JobBoard

/-- Why the store refused a statement. -/
inductive Refusal where
  /-- A required column got no value. -/
  | missingValue (table column : String)
  /-- A value of one type went to a column of another. -/
  | wrongType (value type table column : String)
  /-- A row id is not a whole number. -/
  | badRowId
  /-- A row breaks a rule of its table. -/
  | checkFailed (rule : String)
  /-- Two rows agree in columns that must differ. -/
  | duplicate (isRowId : Bool) (table : String) (columns : List String)
  /-- A row refers to a row that does not exist. -/
  | danglingReference
  /-- A trigger spoke up. -/
  | raised (message : String)
  /-- No table of that name. -/
  | noTable (name : String)
  /-- No column of that name. -/
  | noColumn (name : String)
  /-- A table lacks a column that values were given for. -/
  | tableLacksColumn (table column : String)
  /-- The text filter needs a function that this connection does not have. -/
  | noFunction (name : String)
  /-- A table refers to one that has no row ids. -/
  | referenceMismatch (child parent : String)
  /-- A table of that name exists. -/
  | tableExists (name : String)
  /-- An index of that name exists. -/
  | indexExists (name : String)
  /-- A table has the name of an index. -/
  | tableInTheWay (name : String)
  /-- An index has the name of a table. -/
  | indexInTheWay (name : String)
  /-- More parameters than a statement may have. -/
  | tooManyParameters
  /-- A pattern longer than the text filter takes. -/
  | patternTooLong
  /-- The rows that a foreign table has are ordered by a column that it lacks. -/
  | noOrderColumn
  /-- A row without any value. -/
  | noValues
  /-- Another connection holds the lock. -/
  | locked
  /-- The connection only reads. -/
  | readOnly
  /-- A transaction was begun inside another. -/
  | alreadyInTransaction
  /-- A commit without a transaction. -/
  | nothingToCommit
  /-- A rollback without a transaction. -/
  | nothingToRollBack
  /-- The token fired while the statement ran. -/
  | interrupted
  /-- The file holds something else. -/
  | notADatabase
  /-- The file cannot be opened. -/
  | cannotOpen (path : String)
  /-- A file address names another machine. -/
  | foreignMachine (name : String)
  /-- A file address asks for a mode of a kind that does not exist. -/
  | noMode (kind name : String)
  /-- A file address asks for more than it may. -/
  | modeNotAllowed (name : String)
  /-- A file address asks for a way to reach files that does not exist. -/
  | noCarrier (name : String)
  /-- A text in a statement is cut short. -/
  | brokenText (text : String)
  deriving DecidableEq, Repr

namespace Refusal

/-- The extended code. -/
def code : Refusal → Int
  | missingValue .. => 1299
  | wrongType .. => 3091
  | badRowId => 20
  | checkFailed _ => 275
  | duplicate isRowId .. => if isRowId then 1555 else 2067
  | danglingReference => 787
  | raised _ => 1811
  | locked => 5
  | readOnly => 8
  | modeNotAllowed _ => 3
  | interrupted => 9
  | notADatabase => 26
  | cannotOpen _ => 14
  | _ => 1

/-- The greatest number of parameters of one statement. -/
def parameterLimit : Nat := 32766

/-- The wording. -/
def message : Refusal → String
  | missingValue table column => "NOT NULL constraint failed: " ++ table ++ "." ++ column
  | wrongType value type table column =>
    "cannot store " ++ value ++ " value in " ++ type ++ " column " ++ table ++ "." ++ column
  | badRowId => "datatype mismatch"
  | checkFailed rule => "CHECK constraint failed: " ++ rule
  | duplicate _ table columns =>
    "UNIQUE constraint failed: " ++ ", ".intercalate (columns.map fun c => table ++ "." ++ c)
  | danglingReference => "FOREIGN KEY constraint failed"
  | raised text => text
  | noTable name => "no such table: " ++ name
  | noColumn name => "no such column: " ++ name
  | tableLacksColumn table column => "table " ++ table ++ " has no column named " ++ column
  | noFunction name => "no such function: " ++ name
  | referenceMismatch child parent =>
    "foreign key mismatch - \"" ++ child ++ "\" referencing \"" ++ parent ++ "\""
  | tableExists name => "table " ++ name ++ " already exists"
  | indexExists name => "index " ++ name ++ " already exists"
  | tableInTheWay name => "there is already a table named " ++ name
  | indexInTheWay name => "there is already an index named " ++ name
  | tooManyParameters => "variable number must be between ?1 and ?32766"
  | patternTooLong => "LIKE or GLOB pattern too complex"
  | noOrderColumn => "2nd ORDER BY term out of range - should be between 1 and 1"
  | noValues => "near \")\": syntax error"
  | locked => "database is locked"
  | readOnly => "attempt to write a readonly database"
  | alreadyInTransaction => "cannot start a transaction within a transaction"
  | nothingToCommit => "cannot commit - no transaction is active"
  | nothingToRollBack => "cannot rollback - no transaction is active"
  | interrupted => "interrupted"
  | notADatabase => "file is not a database"
  | cannotOpen path => "unable to open database file: " ++ path
  | foreignMachine name => "invalid uri authority: " ++ name
  | noMode kind name => "no such " ++ kind ++ " mode: " ++ name
  | modeNotAllowed name => "access mode not allowed: " ++ name
  | noCarrier name => "no such vfs: " ++ name
  | brokenText text => "unrecognized token: \"" ++ text ++ "\""

end Refusal

end JobBoard
