import JobBoard.Store.Integrity

/-!
# Inserting rows

A row passes a fixed sequence of tests: the type of its id, the triggers, required columns, column
types, the rules of its table, uniqueness, and last its references. Triggers and rules have the
column types looked at before them; where there are neither, a taken id is noticed first. The first
test that fails decides the refusal. Rows that the board builds itself have the right types and
enter at the triggers.
-/

namespace JobBoard.Store

/-- The names by which the row id of any table goes. -/
def isRowIdName (s : String) : Bool := s == "rowid" || s == "oid" || s == "_rowid_"

/-- What triggers see in place of an id that the store will choose. -/
def openId : Cell := .integer (-1)

/-- What triggers see of a new row: its row id, which may go by the name of a column too, and the
values of its columns. -/
structure Shown where
  keyed : Bool
  rowId : Cell := openId
  values : List (String × Cell)
  deriving DecidableEq, Repr

/-- Whether a row sets off a trigger. The row id is a whole number and so is what it is compared
with, where possible; other columns are compared as they are. -/
def Shown.setsOff (s : Shown) (t : Trigger) : Bool :=
  if isRowIdName t.column || (s.keyed && t.column == "id") then
    s.rowId.equals (ColumnType.integer.adapt t.equals)
  else
    match s.values.find? (·.1 == t.column) with
    | some v => v.2.equals t.equals
    | none => false

/-- The reaction of the newest trigger that the row sets off. -/
def firing? (triggers : List Trigger) (s : Shown) : Option Reaction :=
  (triggers.find? s.setsOff).map Trigger.reaction

/-- A column that a trigger looks at and the table does not have. -/
def blindTrigger? (columns : List String) (triggers : List Trigger) : Option Refusal :=
  (triggers.find? fun t => !isRowIdName t.column && !columns.contains t.column).map fun t =>
    .noColumn ("NEW." ++ t.column)

/-- The least positive id that is free. -/
def leastFreeId (ids : List Int) : Int :=
  let candidates := (List.range (ids.length + 1)).map fun n : Nat => (n + 1 : Int)
  (candidates.find? fun i => !ids.contains i).getD 1

/-- The next free id: one more than the largest, one in an empty table. There is none above the
greatest id; once that is taken, some other id that is free has to do. -/
def nextId (ids : List Int) : Int :=
  match ids with
  | [] => 1
  | i :: rest =>
    let largest := rest.foldl max i
    if largest < greatestId then largest + 1 else leastFreeId ids

/-- The first rule that a row breaks. -/
def Relation.brokenRule? {α : Type} (r : Relation α) (a : α) : Option Refusal :=
  (r.rules.find? fun rule => !(rule.holds a)).map fun rule => .checkFailed rule.text

/-- The first pair of a row of the table and a new row that agree where they must not. -/
def Relation.clash? {α : Type} (r : Relation α) (table : String) (rows : List α) (a : α) :
    Option Refusal :=
  (r.uniques.find? fun u => rows.any (u.agree · a)).map fun u =>
    .duplicate u.isRowId table u.columns

/-- The last tests on a row, and its entry into the table. A reference to nothing is found before
the row is written, unless the table has triggers. -/
def Database.enter (db : Database) (ignoreRules : Bool) (t : TableName) (x : Table t.Row)
    (a : t.Row) : Effect Unit :=
  let r := relation t x.relaxed
  match if ignoreRules then none else r.brokenRule? a with
  | some cause => .refuse db cause
  | none =>
    match r.clash? t.text x.rows a with
    | some cause => .refuse db cause
    | none =>
      let after := db.setTable t (some { x with rows := x.rows ++ [a] })
      if after.refersToNothing t x.relaxed a then
        .undo db (if x.triggers.isEmpty then 0 else 1) .danglingReference
      else .done after 1 ()

/-- The effect of a reaction on an insertion, which hands back nothing. -/
def react {α : Type} (db : Database) (nothing : α) (reaction : Reaction) : Effect α :=
  match reaction with
  | .ignore => .done db 0 nothing
  | .abort m | .fail m => .refuse db (.raised m)
  | .rollback m => { answer := .error (.raised m), tables := db, endsTransaction := true }

/-- The steps for the triggers of a table that a row passes. -/
def triggerSteps (triggers : Nat) : Nat := if triggers = 0 then 0 else 3 + 6 * triggers

/-- How an insertion is spread when a trigger fires that stands behind some others. -/
def firedWork (start passed skip : Nat) (reaction : Reaction) : Work :=
  { before := start + 6 * passed, after := if reaction = .ignore then skip else 6 }

/-- How the insertion of an entry is spread. It can be left past the triggers. From there it goes on
to the row that is handed back, before it is settled, or to the refusal, which settles it. -/
def entryWork (judges : Bool) (triggers referrers : Nat) (answer : Except Refusal (Option Int)) :
    Work :=
  let start := (if triggers = 0 then 4 else 6 + 6 * triggers) + judges.toNat
  let tests := (if judges then 5 else 0) + triggerSteps triggers
  match answer with
  | .ok _ => { before := start, each := 27 + referrers + tests - start }
  | .error (.checkFailed _) => { before := start, after := 12 + tests - start }
  | .error _ => { before := start, after := 17 + tests - start }

/-- A new dictionary entry under the next free id. Answers the id, or nothing when a trigger left
the row out. -/
def insertEntry (ignoreRules : Bool) (d : Dictionary) (name : String) : Update (Option Int) :=
  fun db =>
    match db.occupant (.dictionary d) with
    | .vacant => .error (.noTable d.text)
    | .standIn _ => .error (.tableLacksColumn d.text "name")
    | .own x =>
      match blindTrigger? (dictionaryRelation.columns.map Column.name) x.triggers with
      | some cause => .error cause
      | none =>
        let shown : Shown := { keyed := true, values := [("name", .text name)] }
        match firing? x.triggers shown with
        | some reaction =>
          let passed := x.triggers.findIdx shown.setsOff
          let work := firedWork (12 + (!ignoreRules).toNat) passed 9 reaction
          .ok ((react db none reaction).working work)
        | none =>
          let id := nextId (x.rows.map Entry.id)
          let e := (db.enter ignoreRules (.dictionary d) x ⟨id, name⟩).map fun _ => some id
          let referrers := (db.referrers (.dictionary d)).length
          .ok (e.working (entryWork (!ignoreRules) x.triggers.length referrers e.answer))

/-- Why an insertion of edges cannot be compiled. -/
def Database.edgeObstacle? (db : Database) (k : EdgeKind) : Option Refusal :=
  match db.occupant (.edges k) with
  | .vacant => some (.noTable k.text)
  | .standIn _ => some (.tableLacksColumn k.text k.ownerColumn)
  | .own x =>
    (blindTrigger? [k.ownerColumn, k.entryColumn] x.triggers).or
      (db.lostReference? (.edges k) fun _ => true)

/-- How the insertion of an edge is spread. It can be left past the triggers, and where its entry
and its owner are found. A refusal settles it. -/
def edgeWork (judges : Bool) (x : Table Edge) (e : Edge) (entryFound ownerFound : Bool)
    (answer : Except Refusal Unit) : Work :=
  let indexes := 1 + x.indexes.length
  let triggers := x.triggers.length
  let start := (if triggers = 0 then 3 else 4 + indexes + 6 * triggers) + judges.toNat
  let tests := (if judges then 3 else 0) + triggerSteps triggers
  let atEntry := 20 + 4 * indexes + tests
  let atOwner := 27 + 4 * indexes + tests
  match answer with
  | .error (.checkFailed _) =>
    let rules := if 0 < e.owner then 2 else 1
    { before := start, after := 9 + indexes + rules + tests - start }
  | .error (.duplicate ..) => { before := start, after := 14 + 4 * indexes + tests - start }
  | _ =>
    -- without triggers a missing row is noticed where it is looked for, otherwise at the end
    let goesOn := entryFound || x.relaxed || triggers != 0
    let left := if goesOn && ownerFound then atOwner else if entryFound then atEntry else start
    let total :=
      if !goesOn then atEntry
      else if ownerFound || triggers != 0 then 3 + indexes + atOwner
      else atOwner
    { before := left, after := total - left }

/-- A new edge. -/
def insertEdge (ignoreRules : Bool) (k : EdgeKind) (e : Edge) : Update Unit :=
  fun db =>
    match db.edgeObstacle? k with
    | some cause => .error cause
    | none =>
      match db.table (.edges k) with
      | none => .error (.noTable k.text)
      | some x =>
        let values := [(k.ownerColumn, Cell.integer e.owner), (k.entryColumn, .integer e.entry)]
        let shown : Shown := { keyed := false, values }
        let judges := !ignoreRules && !x.relaxed
        match firing? x.triggers shown with
        | some reaction =>
          let passed := x.triggers.findIdx shown.setsOff
          let work := firedWork (11 + x.indexes.length + judges.toNat) passed 7 reaction
          .ok ((react db () reaction).working work)
        | none =>
          let entered := db.enter ignoreRules (.edges k) x e
          let entryFound := db.hasId (.dictionary k.dictionary) e.entry
          let ownerFound := db.hasId (.ofOwner k.owner) e.owner
          .ok (entered.working (edgeWork judges x e entryFound ownerFound entered.answer))

/-- The value given for a column, or its fallback. -/
def givenCell (values : List (String × Cell)) (c : Column) : Cell :=
  match values.find? (·.1 == c.name) with
  | some v => v.2
  | none => c.fallback

/-- The row id given for a new row, under whichever of its names comes last; nothing when the store
is to choose it. It has to be a whole number. -/
def givenRowId (keyed : Bool) (values : List (String × Cell)) : Except Refusal (Option Int) :=
  match values.reverse.find? fun v => isRowIdName v.1 || (keyed && v.1 == "id") with
  | none | some (_, .null) => .ok none
  | some (_, c) =>
    match ColumnType.integer.adapt c with
    | .integer n => .ok (some n)
    | _ => .error .badRowId

/-- The first value of the wrong type. -/
def wrongType? (table : String) (columns : List Column) (cells : List Cell) : Option Refusal :=
  (columns.zip cells).findSome? fun (c, v) =>
    if c.type.accepts v then none else some (.wrongType v.typeName c.type.name table c.name)

/-- The first required column without a value. -/
def missingValue? (table : String) (columns : List Column) (cells : List Cell) : Option Refusal :=
  (columns.zip cells).findSome? fun (c, v) =>
    if c.required && v == .null then some (.missingValue table c.name) else none

/-- A row id that is taken, found before the types of the other columns are looked at. That is the
case where no rule is judged, since the first rule has the types looked at. -/
def Database.takenId? (db : Database) (t : TableName) (judges : Bool) (cells : List Cell) :
    Option Refusal :=
  match cells with
  | .integer id :: _ =>
    if t.hasRowId && !judges && db.hasId t id then some (.duplicate true t.text ["id"]) else none
  | _ => none

/-- The tests on the values of a new row up to its rules; then the row enters its table. -/
def Database.enterCells (db : Database) (ignoreRules : Bool) (t : TableName) (x : Table t.Row)
    (cells : List Cell) : Effect Unit :=
  let r := relation t x.relaxed
  let judges := !r.rules.isEmpty && !ignoreRules
  match (missingValue? t.text r.columns cells).or
      ((db.takenId? t judges cells).or (wrongType? t.text r.columns cells)) with
  | some cause => .refuse db cause
  | none =>
    match r.ofCells cells with
    | some a => db.enter ignoreRules t x a
    | none => .refuse db .badRowId

/-- The cells of a row under a row id, which is the first column of a table that has one. -/
def withRowId (t : TableName) (id : Int) (cells : List Cell) : List Cell :=
  if t.hasRowId then .integer id :: cells.drop 1 else cells

/-- A row given column by column, once the statement is compiled. -/
def Database.insertValues (db : Database) (ignoreRules : Bool) (t : TableName) (x : Table t.Row)
    (values : List (String × Cell)) : Effect Unit :=
  let columns := (relation t x.relaxed).columns
  match givenRowId t.hasRowId values with
  | .error cause => .refuse db cause
  | .ok given =>
    let cells := columns.map fun c => c.type.adapt (givenCell values c)
    let shown : Shown := {
      keyed := t.hasRowId
      rowId := (given.map Cell.integer).getD openId
      values := (columns.map Column.name).zip cells }
    let typed := withRowId t (given.getD 0) cells
    match if x.triggers.isEmpty then none else wrongType? t.text columns typed with
    | some cause => .refuse db cause
    | none =>
      match firing? x.triggers shown with
      | some reaction => react db () reaction
      | none =>
        let id := given.getD (nextId (db.ids t))
        db.enterCells ignoreRules t x (withRowId t id cells)

/-- Why a row cannot be inserted into a foreign table in a table's place: references to it that
would have to be looked at. -/
def Database.standInInsertObstacle? (db : Database) (t : TableName) (f : Foreign) :
    Option Refusal :=
  ((db.referrers t).find? fun r => r.deferred || !f.triggers.isEmpty).map fun r =>
    .referenceMismatch r.table.text t.text

/-- A new row of a foreign table, which has one column and no rules. -/
def Database.insertForeign (db : Database) (f : Foreign) (values : List (String × Cell)) :
    Effect Unit :=
  match givenRowId false values with
  | .error cause => .refuse db cause
  | .ok given =>
    let cell := ColumnType.integer.adapt (givenCell values idColumn)
    let shown : Shown := {
      keyed := false
      rowId := (given.map Cell.integer).getD openId
      values := [("id", cell)] }
    match firing? f.triggers shown with
    | some reaction => react db () reaction
    | none => .done (db.changeForeign f fun g => { g with rows := g.rows ++ [cell] }) 1 ()

/-- A row given column by column. -/
def insertRow (ignoreRules : Bool) (t : TableName) (values : List (String × Cell)) : Update Unit :=
  fun db =>
    let unknown (columns : List String) : Option Refusal :=
      (values.find? fun v => !isRowIdName v.1 && !columns.contains v.1).map fun v =>
        .tableLacksColumn t.text v.1
    match db.occupant t with
    | .vacant => .error (.noTable t.text)
    | .standIn f =>
      match (unknown ["id"]).or
          ((blindTrigger? ["id"] f.triggers).or (db.standInInsertObstacle? t f)) with
      | some cause => .error cause
      | none => .ok (db.insertForeign f values)
    | .own x =>
      let columns := (relation t x.relaxed).columns.map Column.name
      match (unknown columns).or
          ((blindTrigger? columns x.triggers).or (db.lostReference? t fun _ => true)) with
      | some cause => .error cause
      | none => .ok (db.insertValues ignoreRules t x values)

end JobBoard.Store
