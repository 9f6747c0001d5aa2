import JobBoard.Store.Effect

/-!
# Referential integrity

A row that refers to another needs that row. Whether it does is looked at when rows change; whether
it can be looked at, when a statement is compiled. A statement on a table whose references lead to
no table, or to a foreign one, cannot be compiled; neither can one that would remove such rows
further down, through references that cascade.
-/

namespace JobBoard.Store

/-- A table that refers to another. -/
structure Referrer where
  table : TableName
  cascades : Bool
  deferred : Bool
  deriving DecidableEq, Repr

/-- The foreign table that a reference leads to, or the lack of any, as a refusal. -/
def Database.lostTarget? (db : Database) (t target : TableName) : Option Refusal :=
  match db.occupant target with
  | .own _ => none
  | .standIn _ => some (.referenceMismatch t.text target.text)
  | .vacant => some (.noTable ("main." ++ target.text))

/-- The first reference of a table, among those by some columns, that leads to no table of the
board. -/
def Database.lostReference? (db : Database) (t : TableName) (concerns : String → Bool) :
    Option Refusal :=
  match db.table t with
  | none => none
  | some x =>
    (relation t x.relaxed).references.findSome? fun r =>
      if concerns r.column then db.lostTarget? t r.target else none

/-- Whether a table is a relaxed one, which is made after all others. -/
def Database.isRelaxed (db : Database) (t : TableName) : Bool :=
  match db.table t with
  | some x => x.relaxed
  | none => false

/-- All tables, the one that was made last first. -/
def Database.newestFirst (db : Database) : List TableName :=
  TableName.all.reverse.filter db.isRelaxed ++ TableName.all.reverse.filter (!db.isRelaxed ·)

/-- The tables that refer to a table, the one that was made last first. -/
def Database.referrers (db : Database) (t : TableName) : List Referrer :=
  db.newestFirst.flatMap fun u =>
    match db.table u with
    | none => []
    | some x =>
      ((relation u x.relaxed).references.filter (·.target == t)).map fun r =>
        ⟨u, r.cascades, r.deferred⟩

/-- A table and, so many levels down, the tables whose rows go along with its rows. -/
def Database.reached (db : Database) : Nat → TableName → List TableName
  | 0, t => [t]
  | depth + 1, t =>
    t :: ((db.referrers t).filter (·.cascades)).flatMap fun r => db.reached depth r.table

/-- The most levels of references that cascade: from an employer or an applicant down to edges. -/
def cascadeDepth : Nat := 2

/-- Why rows of some tables cannot be removed. -/
def Database.removalObstacle? (db : Database) (ts : List TableName) : Option Refusal :=
  ts.findSome? fun t => db.lostReference? t fun _ => true

/-- Why rows of a foreign table in a table's place cannot be removed: tables that refer to it. The
last one that cascades is named, or else the first. -/
def Database.standInObstacle? (db : Database) (t : TableName) : Option Refusal :=
  let rs := db.referrers t
  (((rs.filter (·.cascades)).getLast?).or rs.head?).map fun r =>
    .referenceMismatch r.table.text t.text

/-- Whether a row refers, by a reference that is judged now, to a row that is missing. -/
def Database.refersToNothing (db : Database) (t : TableName) (relaxed : Bool) (a : t.Row) : Bool :=
  (relation t relaxed).references.any fun r =>
    !r.deferred &&
      match r.key a with
      | some id => !(db.hasId r.target id)
      | none => false

/-- Whether a row of a table refers to a missing row, looking at the references that are judged now
or at those that are judged at the commit. -/
def Database.dangles (db : Database) (deferred : Bool) (t : TableName) : Bool :=
  match db.table t with
  | none => false
  | some x =>
    (relation t x.relaxed).references.any fun r =>
      r.deferred == deferred && x.rows.any fun a =>
        match r.key a with
        | some id => !(db.hasId r.target id)
        | none => false

/-- Whether some reference that is judged now is broken. -/
def Database.broken (db : Database) : Bool := TableName.all.any (db.dangles false)

/-- Whether some reference that is judged at the commit is broken. -/
def Database.owes (db : Database) : Bool := TableName.all.any (db.dangles true)

end JobBoard.Store
