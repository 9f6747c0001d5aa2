import JobBoard.Call.Basic

/-!
# Edge calls

Edges are attached in one transaction, all of them or none; an edge that exists already is passed
over. The error that stops an attachment is the one its caller sees, even if undoing it fails too.
-/

namespace JobBoard

open Observe Store

/-- The join of an owner's edges with their entries, or why it cannot be compiled: both tables have
to exist before any of their columns is looked at. -/
def joinedEntries (k : EdgeKind) (owner : Int) (db : Database) : Except Refusal (List Entry) :=
  match db.occupant (.edges k), db.occupant (.dictionary k.dictionary) with
  | .vacant, _ => .error (.noTable k.text)
  | _, .vacant => .error (.noTable k.dictionary.text)
  | _, .standIn _ => .error (.noColumn "l.name")
  | .standIn _, _ => .error (.noColumn ("a." ++ k.ownerColumn))
  | .own edges, .own entries =>
    .ok ((edges.rows.filter fun e => e.owner == owner).flatMap fun e =>
      entries.rows.filter fun l => l.id == e.entry)

/-- The entries at the far ends of an owner's edges, by increasing name. -/
def entriesOfOwner (k : EdgeKind) (owner : Int) : Query (List Entry) :=
  .of fun db =>
    (joinedEntries k owner db).map fun joined =>
      joined.mergeSort fun a b => decide (a.name ≤ b.name)

namespace Call

/-- Inserts edges one by one; counts those that exist already. The first other failure stops. -/
def addEach (k : EdgeKind) (owner : Int) : List Int → Nat → Call → Answered Call Nat
  | [], skipped, s => (.ok skipped, s)
  | id :: rest, skipped, s =>
    match s.change .edge (fun _ => false) (insertEdge s.connection.ignoresRules k ⟨owner, id⟩) with
    | (.ok (), s) => addEach k owner rest skipped s
    | (.error e, s) =>
      if e.writeFailure = .uniqueViolation then addEach k owner rest (skipped + 1) s
      else (.error (.ofFailedWrite (Activity.add k).text e), s)

/-- Everything that happens inside the transaction before its commit. -/
def addAll (k : EdgeKind) (owner : Int) (ids : List Int) (s : Call) : Answered Call Nat :=
  match s.connection.view.edgeObstacle? k with
  | some cause => (.error (.internal (Activity.prepare k).text (some (.refused cause))), s)
  | none =>
    match (s.prepare .edge).addEach k owner ids 0 with
    | (.error e, s) => (.error e, s)
    | (.ok skipped, s) =>
      match during (.finish k) s.check with
      | (.error e, s) => (.error e, s)
      | (.ok (), s) => (.ok skipped, s)

/-- Undoes the transaction after an error. A failure to do so is only reported. -/
def undoEdges (s : Call) : Call :=
  match s.connection.rollback with
  | (.ok (), c) => { s with connection := c }
  | (.error cause, c) =>
    { s with connection := c }.tell (.rollbackFailed .associate (.refused cause))

/-- Commits the transaction. If that fails, nothing of it stays. -/
def commitEdges (k : EdgeKind) (requested skipped : Nat) (s : Call) : Answered Call Unit :=
  match s.connection.commit with
  | (.ok (), c) => (.ok (), { s with connection := c }.note (.edgesAdded k requested skipped))
  | (.error cause, c) =>
    (.error (.internal (Activity.commit k).text (some (.refused cause))),
      { s with connection := c.abandon })

/-- Attaches edges in one transaction. -/
def insertEdges (k : EdgeKind) (owner : Int) (ids : List Int) (s : Call) : Answered Call Unit :=
  match during (.start k) s.check with
  | (.error e, s) => (.error e, s)
  | (.ok (), s) =>
    match s.connection.begin .immediate with
    | (.error cause, c) =>
      (.error (.internal (Activity.begin k).text (some (.refused cause))),
        { s with connection := c })
    | (.ok (), c) =>
      match { s with connection := c }.addAll k owner ids with
      | (.ok skipped, s) => s.commitEdges k ids.length skipped
      | (.error e, s) => (.error e, s.undoEdges)

/-- Attaches every listed entry to an owner. Nothing happens for an empty list. -/
def associate (k : EdgeKind) (owner : Int) (ids : List Int) (s : Call) : Answered Call Unit :=
  match ids with
  | [] => (.ok (), s)
  | _ => observed tell .associate (fun s => s.insertEdges k owner ids) s

/-- The entries attached to an owner, by increasing name. -/
def listForOwner (k : EdgeKind) (owner : Int) : Call → Answered Call (List Entry) :=
  observed tell .listAssociations fun s => during (.listEdges k) (s.ask (entriesOfOwner k owner))

/-- Detaches everything from an owner. Answers how many edges there were. -/
def clearOwner (k : EdgeKind) (owner : Int) : Call → Answered Call Nat :=
  observed tell .clearAssociations fun s =>
    during (.clearEdges k) (s.change .once (fun _ => false) (clearEdges k owner))

end Call

end JobBoard
