import JobBoard.Store.Schema

/-!
# Connections

One connection to a database, seen from the connection: the last committed tables, what the other
connections to the same file hold, and its own transaction. A statement is compiled first, which
needs no lock. A read inside a transaction pins what the transaction sees. A write needs the one
write lock of the file; with a rollback journal a commit needs that nobody else is reading, with a
write-ahead log a transaction that sees old tables can no longer write.
-/

namespace JobBoard.Store

/-- How a database keeps what it may have to undo. -/
inductive Journal where
  | memory
  | rollback
  | ahead
  deriving DecidableEq, Repr

/-- The name of a journal mode. -/
def Journal.text : Journal → String
  | .memory => "memory"
  | .rollback => "delete"
  | .ahead => "wal"

/-- What other connections to the file hold. -/
structure Elsewhere where
  reading : Bool := false
  writing : Bool := false
  exclusive : Bool := false
  deriving DecidableEq, Repr

/-- An open transaction. The view is what it sees once it has read: the tables and the number of
commits at that time. An exclusive one keeps new readers out. -/
structure Transaction where
  view : Option (Database × Nat) := none
  writing : Bool := false
  exclusive : Bool := false
  /-- Whether the file was written to, even if nothing of it stays. -/
  touched : Bool := false
  deriving DecidableEq, Repr

/-- How a transaction is begun. -/
inductive BeginMode where
  | deferred
  | immediate
  | exclusive
  deriving DecidableEq, Repr

/-- A connection. -/
structure Connection where
  committed : Database := {}
  commits : Nat := 0
  journal : Journal := .memory
  /-- Whether the file holds a database at all. -/
  readable : Bool := true
  readOnly : Bool := false
  elsewhere : Elsewhere := {}
  transaction : Option Transaction := none
  /-- The tables as they were seen last, against which statements are compiled while others keep
  this connection from reading. -/
  known : Option Database := none
  /-- Whether the text filter's function is known here. -/
  foldsCase : Bool := true
  ignoresRules : Bool := false
  busyTimeoutMs : Nat := 5000
  deriving DecidableEq, Repr

/-- The outcome of a statement on a connection. -/
structure Ran (α : Type) where
  answer : Except Refusal α
  connection : Connection
  writes : Nat := 0
  work : Work := {}

namespace Connection

/-- Whether no transaction is open. -/
def autocommit (c : Connection) : Bool := c.transaction.isNone

/-- What the open transaction has seen. -/
def pinned? (c : Connection) : Option (Database × Nat) := c.transaction.bind Transaction.view

/-- The tables that the next statement will see, if it can see any. -/
def view (c : Connection) : Database :=
  match c.pinned? with
  | some (db, _) => db
  | none => c.committed

/-- Whether another connection keeps this one from reading. -/
def readBlocked (c : Connection) : Bool :=
  c.journal == .rollback && c.elsewhere.exclusive && c.pinned?.isNone

/-- Whether another connection keeps this one from committing. -/
def commitBlocked (c : Connection) : Bool := c.journal == .rollback && c.elsewhere.reading

/-- The tables that statements are compiled against. -/
def schema (c : Connection) : Except Refusal Database :=
  if !c.readable then .error .notADatabase
  else if c.readBlocked then
    match c.known with
    | some db => .ok db
    | none => .error .locked
  else .ok c.view

/-- The connection after a look at the tables, which an open transaction pins. -/
def pin (c : Connection) : Connection :=
  match c.transaction with
  | some t =>
    let seen := t.view.getD (c.committed, c.commits)
    { c with transaction := some { t with view := some seen } }
  | none => c

/-- A statement that reads. -/
def read {α : Type} (q : Query α) (c : Connection) : Except Refusal α × Connection :=
  if Refusal.parameterLimit < q.parameters then (.error .tooManyParameters, c)
  else
    match c.schema with
    | .error cause => (.error cause, c)
    | .ok db =>
      match q.run db with
      | .error cause => (.error cause, c)
      | .ok answer => if c.readBlocked then (.error .locked, c) else (answer, c.pin)

/-- Why the connection cannot turn to writing. -/
def writeObstacle? (c : Connection) : Option Refusal :=
  if (c.transaction.map Transaction.writing).getD false then none
  else if c.readBlocked then some .locked
  else if c.readOnly then some .readOnly
  else if c.elsewhere.writing then some .locked
  else
    match c.pinned? with
    | some (_, seen) => if seen = c.commits then none else some .locked
    | none => none

/-- The steps of a statement that is kept from writing. Where it waits for a lock nothing is
settled. -/
def deniedWork (cause : Refusal) : Work :=
  if cause = .readOnly then { after := 2 } else { before := 2 }

/-- The connection with new committed tables. -/
def publish (c : Connection) (db : Database) (touched : Bool) : Connection :=
  { c with committed := db, commits := if touched then c.commits + 1 else c.commits }

/-- The end of a statement outside a transaction: it is committed at once or not at all. A statement
that hands back a row is over when the row is read, so a commit refused after that goes unnoticed.
-/
def finishAlone {α : Type} (handsBack : α → Bool) (e : Effect α) (c : Connection) :
    Except Refusal α × Connection :=
  match e.answer with
  | .error cause => (.error cause, c)
  | .ok a =>
    if e.tables.owes then (.error .danglingReference, c)
    else if c.commitBlocked then (if handsBack a then .ok a else .error .locked, c)
    else (.ok a, c.publish e.tables e.touches)

/-- The connection after a statement inside a transaction. -/
def finishWithin {α : Type} (t : Transaction) (e : Effect α) (c : Connection) : Connection :=
  if e.endsTransaction then { c with transaction := none }
  else
    { c with transaction := some { t with
        view := some (e.tables, c.commits), writing := true, touched := t.touched || e.touches } }

/-- A statement that writes. -/
def write {α : Type} (handsBack : α → Bool) (u : Update α) (c : Connection) : Ran α :=
  match c.schema.bind u with
  | .error cause => { answer := .error cause, connection := c }
  | .ok e =>
    match c.writeObstacle? with
    | some cause => { answer := .error cause, connection := c, work := deniedWork cause }
    | none =>
      match c.transaction with
      | none =>
        let (answer, c) := c.finishAlone handsBack e
        { answer, connection := c, writes := e.writes, work := e.work }
      | some t =>
        { answer := e.answer, connection := c.finishWithin t e, writes := e.writes, work := e.work }

/-- A transaction begun on a connection that only reads; it looks at the tables at once. -/
def beginReading (c : Connection) : Except Refusal Unit × Connection :=
  if c.readBlocked then (.error .locked, c)
  else
    match c.transaction with
    | some _ => (.error .alreadyInTransaction, c.pin)
    | none => (.ok (), { c with transaction := some {} }.pin)

/-- A transaction begun for writing. Inside another one the lock is taken all the same, and only
then refused; where readers stand in the way of an exclusive one, no new ones get in. -/
def beginWriting (exclusive : Bool) (c : Connection) : Except Refusal Unit × Connection :=
  let t := c.transaction.getD {}
  if exclusive && !t.writing && c.commitBlocked then
    (.error .locked,
      if t.view.isSome then { c with transaction := some { t with exclusive := true } } else c)
  else
    let begun := { c with transaction := some { t with
      writing := true, exclusive := t.exclusive || (exclusive && !t.writing) } }
    (if c.autocommit then .ok () else .error .alreadyInTransaction, begun.pin)

/-- Begins a transaction. -/
def begin (mode : BeginMode) (c : Connection) : Except Refusal Unit × Connection :=
  match mode with
  | .deferred =>
    if c.autocommit then (.ok (), { c with transaction := some {} })
    else (.error .alreadyInTransaction, c)
  | .immediate | .exclusive =>
    if !c.readable then (.error .notADatabase, c)
    else if c.readOnly then c.beginReading
    else
      match c.writeObstacle? with
      | some cause => (.error cause, c)
      | none => c.beginWriting (mode == .exclusive)

/-- Commits the open transaction. A refused commit leaves it open, and keeps new readers out. -/
def commit (c : Connection) : Except Refusal Unit × Connection :=
  match c.transaction with
  | none => (.error .nothingToCommit, c)
  | some t =>
    match t.writing, t.view with
    | true, some (db, _) =>
      if db.owes then (.error .danglingReference, c)
      else if c.commitBlocked then
        (.error .locked, { c with transaction := some { t with exclusive := true } })
      else (.ok (), { c.publish db t.touched with transaction := none })
    | _, _ => (.ok (), { c with transaction := none })

/-- The connection without its transaction. -/
def abandon (c : Connection) : Connection := { c with transaction := none }

/-- Undoes the open transaction. -/
def rollback (c : Connection) : Except Refusal Unit × Connection :=
  match c.transaction with
  | none => (.error .nothingToRollBack, c)
  | some _ => (.ok (), c.abandon)

end Connection

end JobBoard.Store
