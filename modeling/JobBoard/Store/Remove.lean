import JobBoard.Store.Insert

/-!
# Removing and changing rows

A removed row takes the rows that cascade from it along. What is left must not refer to a row that
is gone, except by references that are judged at the commit.
-/

namespace JobBoard.Store

/-- Tables after a removal, and the number of rows that went. -/
structure Removal where
  tables : Database
  rows : Nat

namespace Removal

/-- Nothing removed. -/
def none (db : Database) : Removal := ⟨db, 0⟩

/-- One removal after another. -/
def andThen (r : Removal) (f : Database → Removal) : Removal :=
  let next := f r.tables
  ⟨next.tables, r.rows + next.rows⟩

end Removal

namespace Database

/-- The rows of a table that satisfy a test go; what depends on them stays. -/
def drop (db : Database) (t : TableName) (test : t.Row → Bool) : Removal :=
  ⟨db.setRows t ((db.rows t).filter (!test ·)), ((db.rows t).filter test).length⟩

/-- Edges that satisfy a test go. -/
def removeEdges (db : Database) (k : EdgeKind) (test : Edge → Bool) : Removal :=
  db.drop (.edges k) test

/-- The edges of one kind go with their owners, unless the table is relaxed. -/
def cascadeEdges (owners : List Int) (k : EdgeKind) (db : Database) : Removal :=
  match db.table (.edges k) with
  | some x =>
    if x.relaxed then .none db else db.removeEdges k fun e => owners.contains e.owner
  | none => .none db

/-- Vacancies that satisfy a test go, and their edges with them. -/
def removeVacancies (db : Database) (test : Vacancy → Bool) : Removal :=
  let gone := ((db.rows .vacancy).filter test).map Vacancy.id
  ((db.drop .vacancy test).andThen (cascadeEdges gone .vacancySkill)).andThen
    (cascadeEdges gone .vacancyCity)

/-- Resumes that satisfy a test go, and their edges with them. -/
def removeResumes (db : Database) (test : Resume → Bool) : Removal :=
  let gone := ((db.rows .resume).filter test).map Resume.id
  ((db.drop .resume test).andThen (cascadeEdges gone .resumeSkill)).andThen
    (cascadeEdges gone .resumeSpecialization)

/-- Employers that satisfy a test go, and their vacancies with them. -/
def removeEmployers (db : Database) (test : Employer → Bool) : Removal :=
  let gone := ((db.rows .employer).filter test).map Employer.id
  (db.drop .employer test).andThen (·.removeVacancies fun v => gone.contains v.employerId)

/-- Applicants that satisfy a test go, and their resumes with them. -/
def removeApplicants (db : Database) (test : Applicant → Bool) : Removal :=
  let gone := ((db.rows .applicant).filter test).map Applicant.id
  (db.drop .applicant test).andThen (·.removeResumes fun r => gone.contains r.applicantId)

/-- The rows of a table that satisfy a test go, with everything that cascades from them. -/
def remove (db : Database) : (t : TableName) → (t.Row → Bool) → Removal
  | .dictionary d, test => db.drop (.dictionary d) test
  | .employer, test => db.removeEmployers test
  | .applicant, test => db.removeApplicants test
  | .vacancy, test => db.removeVacancies test
  | .resume, test => db.removeResumes test
  | .edges k, test => db.removeEdges k test

end Database

/-- The tables after a removal, unless it leaves a reference broken. -/
def Removal.settle {α : Type} (r : Removal) (before : Database) (a : α) : Effect α :=
  if r.tables.broken then .undo before r.rows .danglingReference else .done r.tables r.rows a

/-- How the removal of an owner's edges is spread: all edges are collected first and then removed
one by one, each from the table and from its indexes. Its last step settles it. -/
def clearingWork (x : Table Edge) (owner : Int) (rows : Nat) : Work :=
  let indexes := 1 + x.indexes.length
  let further := if x.rows.any fun e => owner < e.owner then 1 else 0
  { before := 10 + indexes + further + 4 * rows, each := 11 + 3 * indexes, after := 1 }

/-- The edges of one owner go. Answers how many there were. -/
def clearEdges (k : EdgeKind) (owner : Int) : Update Nat := fun db =>
  match db.use (.edges k) k.ownerColumn with
  | .error cause => .error cause
  | .ok x =>
    match db.lostReference? (.edges k) fun _ => true with
    | some cause => .error cause
    | none =>
      let r := db.removeEdges k fun e => e.owner == owner
      .ok ((Effect.done r.tables r.rows r.rows).working (clearingWork x owner r.rows))

/-- The rows of a table with a given value of the id column. -/
def rowIdIs (t : TableName) (relaxed : Bool) (id : Int) (a : t.Row) : Bool :=
  match (relation t relaxed).cells a with
  | c :: _ => c == .integer id
  | [] => false

/-- A row goes, with everything that cascades from it. Answers how many rows had the id. -/
def deleteRow (t : TableName) (id : Int) : Update Nat := fun db =>
  match db.occupant t with
  | .vacant => .error (.noTable t.text)
  | .standIn f =>
    match db.standInObstacle? t with
    | some cause => .error cause
    | none =>
      let hit (c : Cell) : Bool := (Cell.integer id).equals c
      let count := (f.rows.filter hit).length
      .ok (.done (db.changeForeign f fun g => { g with rows := g.rows.filter (!hit ·) }) count
        count)
  | .own x =>
    if !t.hasRowId then .error (.noColumn "id")
    else
      match db.removalObstacle? (db.reached cascadeDepth t) with
      | some cause => .error cause
      | none =>
        let count := (x.rows.filter (rowIdIs t x.relaxed id)).length
        .ok ((db.remove t (rowIdIs t x.relaxed id)).settle db count)

/-- The entry of a given name goes. -/
def deleteEntryNamed (d : Dictionary) (name : String) : Update Nat := fun db =>
  match db.use (.dictionary d) "name" with
  | .error cause => .error cause
  | .ok _ =>
    let r := db.drop (.dictionary d) fun e => e.name == name
    .ok (r.settle db r.rows)

/-- The row after one of its cells was replaced, with the tests that look at that cell. -/
def changedRow (t : TableName) (x : Table t.Row) (column : String) (value : Cell)
    (ignoreRules : Bool) (a : t.Row) : Except Refusal t.Row :=
  let r := relation t x.relaxed
  let isId := t.hasRowId && column == "id"
  let cells := (r.columns.zip (r.cells a)).map fun (c, v) =>
    if c.name == column then (c, c.type.adapt value) else (c, v)
  let changed := cells.filter (·.1.name == column)
  if isId && changed.any (fun cv => !(cv.2 matches .integer _)) then .error .badRowId
  else
    match missingValue? t.text (changed.map (·.1)) (changed.map (·.2)) with
    | some cause => .error cause
    | none =>
      match wrongType? t.text (cells.map (·.1)) (cells.map (·.2)) with
      | some cause => .error cause
      | none =>
        match r.ofCells (cells.map (·.2)) with
        | none => .error .badRowId
        | some b =>
          let rules := r.rules.filter (·.column == column)
          match if ignoreRules then none else rules.find? (fun rule => !(rule.holds b)) with
          | some rule => .error (.checkFailed rule.text)
          | none => .ok b

/-- One cell of a row is replaced, once the statement is compiled. Answers how many rows had the
id. -/
def Database.replaceCell (db : Database) (ignoreRules : Bool) (t : TableName) (x : Table t.Row)
    (id : Int) (column : String) (value : Cell) : Effect Nat :=
  match x.rows.find? (rowIdIs t x.relaxed id) with
  | none => .done db 0 0
  | some a =>
    match changedRow t x column value ignoreRules a with
    | .error cause => .refuse db cause
    | .ok b =>
      let others := x.rows.filter (!rowIdIs t x.relaxed id ·)
      match (relation t x.relaxed).clash? t.text others b with
      | some cause => .refuse db cause
      | none =>
        let put (c : t.Row) : t.Row := if rowIdIs t x.relaxed id c then b else c
        let after := db.setTable t (some { x with rows := x.rows.map put })
        if after.broken then .undo db 1 .danglingReference else .done after 1 1

/-- Why the id of a foreign table in a table's place cannot be changed: tables that refer to it. -/
def Database.standInChangeObstacle? (db : Database) (t : TableName) : Option Refusal :=
  (db.referrers t).head?.map fun r => .referenceMismatch r.table.text t.text

/-- The value of a row of a foreign table, or its row id, is replaced. -/
def Database.replaceForeign (db : Database) (f : Foreign) (id : Int) (column : String)
    (value : Cell) : Effect Nat :=
  let hit (c : Cell) : Bool := (Cell.integer id).equals c
  let count := (f.rows.filter hit).length
  let value := ColumnType.integer.adapt value
  if isRowIdName column then
    if count != 0 && !(value matches .integer _) then .refuse db .badRowId
    else .done db count count
  else
    let put (c : Cell) : Cell := if hit c then value else c
    .done (db.changeForeign f fun g => { g with rows := g.rows.map put }) count count

/-- One cell of a row is replaced. Answers how many rows had the id. -/
def updateCell (ignoreRules : Bool) (t : TableName) (id : Int) (column : String) (value : Cell) :
    Update Nat := fun db =>
  match db.occupant t with
  | .vacant => .error (.noTable t.text)
  | .standIn f =>
    if column != "id" && !isRowIdName column then .error (.noColumn column)
    else
      match if column == "id" then db.standInChangeObstacle? t else none with
      | some cause => .error cause
      | none => .ok (db.replaceForeign f id column value)
  | .own x =>
    let columns := (relation t x.relaxed).columns.map Column.name
    let column := if t.hasRowId && isRowIdName column then "id" else column
    if !isRowIdName column && !columns.contains column then .error (.noColumn column)
    else if !t.hasRowId then .error (.noColumn "id")
    else
      match db.lostReference? t (· == column) with
      | some cause => .error cause
      | none => .ok (db.replaceCell ignoreRules t x id column value)

end JobBoard.Store
