import JobBoard.Console.Reply
import JobBoard.Console.Setting
import JobBoard.Text.Lowercase

/-!
# Statements of the console

Plain statements that an administrator may run on a connection: rows by table and column,
transactions, changes to the schema, and settings of the connection. No token guards them and no
observer hears of them.
-/

namespace JobBoard.Console

open Store

/-- A plain statement. A row to insert that is nothing makes no sense. -/
inductive Statement where
  | insert (t : TableName) (rows : List (Option (List (String × Cell))))
  | update (t : TableName) (id : Int) (column : String) (value : Cell)
  | delete (t : TableName) (id : Int)
  | dump (t : TableName)
  | begin (mode : BeginMode)
  | commit
  | rollback
  | autocommit
  | dropTable (t : TableName)
  | createForeign (t : TableName)
  | ignoreRules (on : Bool)
  | relax
  | trigger (t : TableName) (rule : Trigger)
  | setting (name : String)
  | setVersion (v : Int)
  | schema
  | foldCase (value : Cell)
  | migrate

/-- The columns that hold times, in the tables that have both of them. -/
def stampColumns : TableName → List String
  | .employer | .applicant | .vacancy | .resume => ["created_at", "updated_at"]
  | .dictionary _ | .edges _ => []

/-- A row with the time zero for every time that it lacks. -/
def stamped (t : TableName) (row : List (String × Cell)) : List (String × Cell) :=
  row ++ ((stampColumns t).filter fun c => !row.any (·.1 == c)).map fun c => (c, .integer 0)

/-- Rows inserted one by one up to the first that is refused or makes no sense. -/
def insertRows (t : TableName) : List (Option (List (String × Cell))) → Connection →
    Reply × Connection
  | [], c => (.done, c)
  | none :: _, c => (.meaningless, c)
  | some row :: rest, c =>
    match stamped t row with
    | [] => (.refused .noValues, c)
    | row =>
      let ran := c.write (fun _ => false) (insertRow c.ignoresRules t row)
      match ran.answer with
      | .ok () => insertRows t rest ran.connection
      | .error cause => (.refused cause, ran.connection)

/-- The order of whole numbers in a dump; rows start with one or two of them. -/
def cellsBefore : List Cell → List Cell → Bool
  | .integer a :: as, .integer b :: bs => a < b || (a == b && cellsBefore as bs)
  | _, _ => true

/-- The rows of a table by their first two columns. A foreign table has only one. -/
def dumpRows (t : TableName) : Query (List (List Cell)) := .of fun db =>
  match db.occupant t with
  | .own x =>
    let rows := x.rows.map (relation t x.relaxed).cells
    .ok (rows.mergeSort fun a b => cellsBefore (a.take 2) (b.take 2))
  | .standIn _ => .error .noOrderColumn
  | .vacant => .error (.noTable t.text)

/-- The number of rows where a table belongs. -/
def rowCount (t : TableName) : Query Nat := .of fun db =>
  match db.size? t with
  | some n => .ok n
  | none => .error (.noTable t.text)

/-- The folding function of the text filter on a single value: texts are lowercased, a missing value
stays missing, other values are of no use to it. -/
def foldValue (knows : Bool) (value : Cell) : Except StoreFault Cell :=
  let unfit (type : String) : Except StoreFault Cell :=
    .error (.reported .other 1 ("Invalid function parameter type " ++ type ++ " at index 0"))
  if !knows then .error (.refused (.noFunction "fold_case"))
  else
    match value with
    | .null => .ok .null
    | .text s => .ok (.text (Text.lowercase s))
    | .integer _ => unfit "Integer"
    | .real _ => unfit "Real"
    | .blob _ => unfit "Blob"

/-- The answer to a question for a setting, which may be nothing. -/
def askSetting (name : String) (c : Connection) : Reply × Connection :=
  match setting? name with
  | none => (.statementFailed .noRow, c)
  | some s =>
    match s.value c with
    | (.ok (some v), c) => (.cell v, c)
    | (.ok none, c) => (.statementFailed .noRow, c)
    | (.error cause, c) => (.refused cause, c)

/-- The outcome of a write that answers nothing. -/
def plainWrite (u : Update Unit) (c : Connection) : Reply × Connection :=
  let ran := c.write (fun _ => false) u
  (.ofStatement (fun _ => .done) ran.answer, ran.connection)

/-- The outcome of a write that answers a number. -/
def countingWrite (u : Update Nat) (c : Connection) : Reply × Connection :=
  let ran := c.write (fun _ => false) u
  (.ofStatement (fun n => .number n) ran.answer, ran.connection)

/-- The outcome of a change to the transaction. -/
def plain (r : Except Refusal Unit × Connection) : Reply × Connection :=
  (.ofStatement (fun _ => .done) r.1, r.2)

/-- Runs a statement. -/
def Statement.run (s : Statement) (c : Connection) : Reply × Connection :=
  match s with
  | .insert t rows => insertRows t rows c
  | .update t id column value => countingWrite (updateCell c.ignoresRules t id column value) c
  | .delete t id => countingWrite (deleteRow t id) c
  | .dump t =>
    let (answer, c) := c.read (dumpRows t)
    (.ofStatement .rows answer, c)
  | .begin mode => plain (c.begin mode)
  | .commit => plain c.commit
  | .rollback => plain c.rollback
  | .autocommit => (.flag c.autocommit, c)
  | .dropTable t => plainWrite (Store.dropTable t) c
  | .createForeign t => plainWrite (Store.createForeign t.text) c
  | .ignoreRules on => (.done, { c with ignoresRules := on })
  | .relax => plainWrite relaxResumeSkills c
  | .trigger t rule => plainWrite (addTrigger t rule) c
  | .setting name => askSetting name c
  | .setVersion v => plainWrite (Store.setVersion v) c
  | .schema =>
    let (answer, c) := c.read (.of fun db => .ok db.objects)
    (.ofStatement .texts answer, c)
  | .foldCase value =>
    match foldValue c.foldsCase value with
    | .ok v => (.cell v, c)
    | .error f => (.statementFailed f, c)
  | .migrate =>
    let (answer, c) := c.migrate
    (.ofStore (fun _ => .done) answer, c)

/-- The number of rows of each of some tables, where it can be read. -/
def countEach : List TableName → Connection → List (Option Nat) × Connection
  | [], c => ([], c)
  | t :: rest, c =>
    let (answer, c) := c.read (rowCount t)
    let (counts, c) := countEach rest c
    (answer.toOption :: counts, c)

/-- The number of rows of each table, where it can be read. -/
def counts : Connection → List (Option Nat) × Connection := countEach TableName.all

end JobBoard.Console
