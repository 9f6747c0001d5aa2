import JobBoard.Store.Remove

/-!
# Changing the schema

Tables and indexes are created by name, and a name that is taken is refused. The schema of the board
is built by numbered scripts; a database remembers the number of the last one it ran.
-/

namespace JobBoard.Store

/-- One statement of a script. -/
inductive SchemaStep where
  | createTable (t : TableName)
  | createIndex (t : TableName) (name : String)
  deriving DecidableEq, Repr

/-- A script and the version that it brings a database to. -/
structure Script where
  version : Int
  steps : List SchemaStep

/-- The indexes that the schema gives a table. -/
def TableName.indexes (t : TableName) : List String := (relation t false).indexes

/-- The statements that create the indexes of a table. -/
def indexSteps (t : TableName) : List SchemaStep := t.indexes.map (.createIndex t)

/-- All scripts in increasing order of version: dictionaries, owners, edges. -/
def scripts : List Script := [
  ⟨1, Dictionary.all.map fun d => .createTable (.dictionary d)⟩,
  ⟨2, [.createTable .employer, .createTable .applicant, .createTable .vacancy] ++
    indexSteps .vacancy ++ [.createTable .resume]⟩,
  ⟨3, EdgeKind.all.map (fun k => .createTable (.edges k)) ++
    EdgeKind.all.flatMap fun k => indexSteps (.edges k)⟩]

/-- The version of the current schema. -/
def latestVersion : Int := 3

/-- Why a table of a given name cannot be created. -/
def Database.tableObstacle? (db : Database) (name : String) : Option Refusal :=
  if db.hasTableNamed name then some (.tableExists name)
  else if db.hasIndexNamed name then some (.indexInTheWay name)
  else none

/-- Why an index of a given name cannot be created. -/
def Database.indexObstacle? (db : Database) (name : String) : Option Refusal :=
  if db.hasTableNamed name then some (.tableInTheWay name)
  else if db.hasIndexNamed name then some (.indexExists name)
  else none

/-- The database after one statement of a script. -/
def Database.runStep (db : Database) : SchemaStep → Except Refusal Database
  | .createTable t =>
    match db.tableObstacle? t.text with
    | some cause => .error cause
    | none => .ok (db.setTable t (some {})).revised
  | .createIndex t name =>
    match db.indexObstacle? name with
    | some cause => .error cause
    | none =>
      match db.table t with
      | some x => .ok (db.setTable t (some { x with indexes := x.indexes ++ [name] })).revised
      | none => .error (.noTable ("main." ++ t.text))

/-- The database after a sequence of statements, none of which may be refused. -/
def Database.runSteps (db : Database) : List SchemaStep → Except Refusal Database
  | [] => .ok db
  | s :: rest =>
    match db.runStep s with
    | .ok next => next.runSteps rest
    | .error cause => .error cause

/-- The database after those scripts of a list that are above its version. -/
def Database.runScripts (db : Database) (above : Int) : List Script → Except Refusal Database
  | [] => .ok db
  | s :: rest =>
    if s.version ≤ above then db.runScripts above rest
    else
      match db.runSteps s.steps with
      | .ok next => { next with version := s.version }.runScripts above rest
      | .error cause => .error cause

/-- Brings the schema up to date from the version that was read. -/
def upgradeFrom (above : Int) : Update Unit := fun db =>
  (db.runScripts above scripts).map fun next => .written next 0

/-- The version is set by hand. -/
def setVersion (v : Int) : Update Unit := fun db => .ok (.written { db with version := v } 0)

/-- A foreign table with one column is created. -/
def createForeign (name : String) : Update Unit := fun db =>
  match db.tableObstacle? name with
  | some cause => .error cause
  | none => .ok (.reshaped { db with foreign := db.foreign ++ [{ name, isIndex := false }] } 0)

/-- A table is dropped. If others refer to it, its rows are removed first, which may be refused. -/
def dropTable (t : TableName) : Update Unit := fun db =>
  let isReferred := !(db.referrers t).isEmpty
  match db.occupant t with
  | .vacant => .error (.noTable t.text)
  | .standIn f => .ok (.reshaped (db.removeForeign f) (if isReferred then f.rows.length else 0))
  | .own _ =>
    if isReferred then
      match db.removalObstacle? ((db.reached cascadeDepth t).drop 1) with
      | some cause => .error cause
      | none =>
        let r := db.remove t fun _ => true
        .ok (if r.tables.broken then .undo db r.rows .danglingReference
          else .reshaped (r.tables.setTable t none) r.rows)
    else .ok (.reshaped (db.setTable t none) 0)

/-- The table of resumes' skills is dropped and made anew, empty and relaxed. -/
def relaxResumeSkills : Update Unit := fun db =>
  (dropTable (.edges .resumeSkill) db).map fun e =>
    let made : Option (Table Edge) := some { relaxed := true }
    { e with tables := (e.tables.setTable (.edges .resumeSkill) made).revised }

/-- A statement ends at a NUL. A text in it that holds one lacks its closing quote, as a quoted text
with the quotes in it doubled. -/
def brokenText? (s : String) : Option Refusal :=
  let cs := s.toList
  if cs.contains '\x00' then
    let seen := (cs.takeWhile (· != '\x00')).flatMap fun c => if c = '\'' then [c, c] else [c]
    some (.brokenText ("'" ++ String.ofList seen))
  else none

/-- The message of a reaction. -/
def Reaction.message : Reaction → String
  | .ignore => ""
  | .abort m | .fail m | .rollback m => m

/-- A text among the values that a trigger compares with. -/
def Trigger.comparedText (trigger : Trigger) : String :=
  match trigger.equals with
  | .text s => s
  | _ => ""

/-- A trigger is added to a table. What it compares with stands in front of what it says. -/
def addTrigger (t : TableName) (trigger : Trigger) : Update Unit := fun db =>
  let add (old : List Trigger) : List Trigger := trigger :: old
  match brokenText? trigger.comparedText, db.occupant t, brokenText? trigger.reaction.message with
  | some cause, _, _ => .error cause
  | none, .vacant, _ => .error (.noTable ("main." ++ t.text))
  | none, _, some cause => .error cause
  | none, .standIn f, none =>
    .ok (.reshaped (db.changeForeign f fun g => { g with triggers := add g.triggers }) 0)
  | none, .own x, none =>
    .ok (.reshaped (db.setTable t (some { x with triggers := add x.triggers })) 0)

/-- The names of all tables and indexes, sorted. -/
def Database.objects (db : Database) : List String :=
  let names := db.tableNames.map ("table " ++ ·) ++ db.indexNames.map ("index " ++ ·)
  names.mergeSort fun a b => decide (a ≤ b)

end JobBoard.Store
