import JobBoard.Store.Cell
import JobBoard.Store.Row
import JobBoard.Text.Like

/-!
# The database

Everything that a database file holds: the schema version, the tables of the board as far as they
exist, and tables and indexes that are none of the board's business but may stand in its way.
-/

namespace JobBoard.Store

/-- What a trigger does to the row that is about to be inserted. -/
inductive Reaction where
  /-- The row is left out without a word. -/
  | ignore
  /-- The statement is undone. -/
  | abort (message : String)
  /-- The statement stops where it is. -/
  | fail (message : String)
  /-- The whole transaction is undone and ended. -/
  | rollback (message : String)
  deriving DecidableEq, Repr

/-- A trigger on inserted rows: it reacts to one value of one column. -/
structure Trigger where
  column : String
  equals : Cell
  reaction : Reaction
  deriving DecidableEq, Repr

/-- A table: its rows, its triggers with the newest first, and the names of its indexes. A relaxed
join table has no rules of its own, and its dictionary is consulted only at the commit. -/
structure Table (α : Type) where
  rows : List α := []
  triggers : List Trigger := []
  indexes : List String := []
  relaxed : Bool := false
  deriving DecidableEq, Repr

/-- A table or an index that the board does not know. A foreign table has one column, `id`, which
holds any value and is no key. -/
structure Foreign where
  name : String
  isIndex : Bool
  rows : List Cell := []
  triggers : List Trigger := []
  deriving DecidableEq, Repr

/-- What stands where a table of the board belongs. -/
inductive Occupant (t : TableName) where
  /-- The table itself. -/
  | own (x : Table t.Row)
  /-- A foreign table of the same name. -/
  | standIn (f : Foreign)
  | vacant

/-- The contents of a database. -/
structure Database where
  version : Int := 0
  /-- How often the schema was changed. -/
  revision : Nat := 0
  dictionaries : PerDictionary (Option (Table Entry)) := ⟨none, none, none⟩
  employer : Option (Table Employer) := none
  applicant : Option (Table Applicant) := none
  vacancy : Option (Table Vacancy) := none
  resume : Option (Table Resume) := none
  edges : PerEdgeKind (Option (Table Edge)) := ⟨none, none, none, none⟩
  foreign : List Foreign := []
  deriving DecidableEq, Repr

namespace Database

/-- The database after one more change of its schema. -/
def revised (db : Database) : Database := { db with revision := db.revision + 1 }

/-- A table of the board, if it exists. -/
def table (db : Database) : (t : TableName) → Option (Table t.Row)
  | .dictionary d => db.dictionaries.get d
  | .employer => db.employer
  | .applicant => db.applicant
  | .vacancy => db.vacancy
  | .resume => db.resume
  | .edges k => db.edges.get k

/-- The database with a table created, replaced or removed. -/
def setTable (db : Database) : (t : TableName) → Option (Table t.Row) → Database
  | .dictionary d, x => { db with dictionaries := db.dictionaries.set d x }
  | .employer, x => { db with employer := x }
  | .applicant, x => { db with applicant := x }
  | .vacancy, x => { db with vacancy := x }
  | .resume, x => { db with resume := x }
  | .edges k, x => { db with edges := db.edges.set k x }

@[simp] theorem table_setTable_self (db : Database) (t : TableName) (x : Option (Table t.Row)) :
    (db.setTable t x).table t = x := by
  cases t <;> simp [setTable, table]

theorem table_setTable_of_ne (db : Database) {t u : TableName} (x : Option (Table t.Row))
    (h : u ≠ t) : (db.setTable t x).table u = db.table u := by
  cases t <;> cases u <;>
    simp_all [setTable, table, PerDictionary.get_set_of_ne, PerEdgeKind.get_set_of_ne]

/-- The rows of a table; none when it does not exist. -/
def rows (db : Database) (t : TableName) : List t.Row :=
  match db.table t with
  | some x => x.rows
  | none => []

/-- The database with other rows in a table that exists. -/
def setRows (db : Database) (t : TableName) (rows : List t.Row) : Database :=
  match db.table t with
  | some x => db.setTable t (some { x with rows })
  | none => db

/-- Names are compared without regard to ASCII case. -/
def sameName (a b : String) : Bool := a.toList.map Text.asciiLower == b.toList.map Text.asciiLower

/-- Whether a table of the board exists. -/
def has (db : Database) (t : TableName) : Bool := (db.table t).isSome

/-- The foreign table of a given name. -/
def foreignTable? (db : Database) (name : String) : Option Foreign :=
  db.foreign.find? fun f => !f.isIndex && sameName f.name name

/-- What stands where a table belongs. -/
def occupant (db : Database) (t : TableName) : Occupant t :=
  match db.table t with
  | some x => .own x
  | none =>
    match db.foreignTable? t.text with
    | some f => .standIn f
    | none => .vacant

/-- The database with a foreign table changed. -/
def changeForeign (db : Database) (f : Foreign) (change : Foreign → Foreign) : Database :=
  { db with foreign := db.foreign.map fun g =>
      if !g.isIndex && g.name == f.name then change g else g }

/-- The database without a foreign table. -/
def removeForeign (db : Database) (f : Foreign) : Database :=
  { db with foreign := db.foreign.filter fun g => g.isIndex || g.name != f.name }

/-- The number of rows where a table belongs; none when nothing stands there. -/
def size? (db : Database) (t : TableName) : Option Nat :=
  match db.occupant t with
  | .own x => some x.rows.length
  | .standIn f => some f.rows.length
  | .vacant => none

/-- The names of all tables. -/
def tableNames (db : Database) : List String :=
  (TableName.all.filter db.has).map TableName.text ++
    (db.foreign.filter (!·.isIndex)).map Foreign.name

/-- The names of all indexes. -/
def indexNames (db : Database) : List String :=
  TableName.all.flatMap (fun t => ((db.table t).map Table.indexes).getD []) ++
    (db.foreign.filter (·.isIndex)).map Foreign.name

/-- Whether some table has a name. -/
def hasTableNamed (db : Database) (name : String) : Bool := db.tableNames.any (sameName name)

/-- Whether some index has a name. -/
def hasIndexNamed (db : Database) (name : String) : Bool := db.indexNames.any (sameName name)

end Database

end JobBoard.Store
