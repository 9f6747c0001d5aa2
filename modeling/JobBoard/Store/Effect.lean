import JobBoard.Error.StoreError
import JobBoard.Store.Relation
import JobBoard.Store.Work

/-!
# Statements and their effects

A statement is compiled against the tables that a connection sees, and what cannot be compiled is
refused before any lock is asked for. A compiled statement that reads has an answer, or a refusal
that it meets on the way. One that writes has an effect: an answer or a refusal, the tables
afterwards, and how much was written, also where that was then taken back.
-/

namespace JobBoard.Store

/-- The outcome of a statement that ran on some tables. -/
structure Effect (α : Type) where
  answer : Except Refusal α
  tables : Database
  /-- Rows written, also by a statement that was then refused. -/
  writes : Nat := 0
  /-- Whether the file was written to, even if nothing of it stays. -/
  touches : Bool := false
  /-- Whether the refusal also ends the transaction. -/
  endsTransaction : Bool := false
  work : Work := {}

namespace Effect

variable {α β : Type}

/-- A refusal before anything was written. -/
def refuse (db : Database) (r : Refusal) : Effect α := { answer := .error r, tables := db }

/-- A refusal after a number of rows were written; they are taken back. -/
def undo (db : Database) (writes : Nat) (r : Refusal) : Effect α :=
  { answer := .error r, tables := db, writes, touches := writes != 0 }

/-- An answer after a number of rows were written. -/
def done (db : Database) (writes : Nat) (a : α) : Effect α :=
  { answer := .ok a, tables := db, writes, touches := writes != 0 }

/-- A change that is written even if no row is. -/
def written (db : Database) (writes : Nat) : Effect Unit :=
  { answer := .ok (), tables := db, writes, touches := true }

/-- A change to the schema. -/
def reshaped (db : Database) (writes : Nat) : Effect Unit := .written db.revised writes

/-- The effect with the work that it takes. -/
def working (work : Work) (e : Effect α) : Effect α := { e with work }

/-- The effect with its answer changed. -/
def map (f : α → β) (e : Effect α) : Effect β := { e with answer := e.answer.map f }

end Effect

/-- A statement that reads: how many parameters it has, and what it comes to on some tables. The
outer refusal is met in compiling, the inner one in running. -/
structure Query (α : Type) where
  parameters : Nat := 0
  run : Database → Except Refusal (Except Refusal α)

/-- A query that is never refused once it is compiled. -/
def Query.of {α : Type} (f : Database → Except Refusal α) : Query α :=
  { run := fun db => (f db).map .ok }

/-- A statement that writes: it cannot be compiled, or it has an effect. -/
abbrev Update (α : Type) := Database → Except Refusal (Effect α)

/-- A table of the board that a statement names, and one of its columns. A foreign table in its
place has no such column. -/
def Database.use (db : Database) (t : TableName) (column : String) : Except Refusal (Table t.Row) :=
  match db.occupant t with
  | .own x => .ok x
  | .standIn _ => .error (.noColumn column)
  | .vacant => .error (.noTable t.text)

end JobBoard.Store
