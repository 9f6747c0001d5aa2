import JobBoard.Call.Names

/-!
# A rival

Two stores of names that put the protocol under strain. In one a rival writes between the calls of
the protocol; in the other the replies are given in advance.
-/

namespace JobBoard

open Observe Store

/-- What a rival does after the attempt to create the name. -/
inductive RivalMove where
  | nothing
  | delete
  | dropTable
  | cancel
  deriving DecidableEq, Repr

/-- A call with a rival, who waits for the first look-up. -/
structure Contested where
  call : Call
  waiting : Bool := true

namespace Contested

/-- The rival creates the name, under an id of its own or the next free one. -/
def rivalCreates (id : Option Int) (d : Dictionary) (name : String) (s : Call) : Stored Call Unit :=
  let values := (id.map fun n => ("id", Cell.integer n)).toList ++ [("name", .text name)]
  s.perform (fun _ => false) (insertRow s.connection.ignoresRules (.dictionary d) values)

/-- What the rival does in the end. -/
def rivalMoves (move : RivalMove) (d : Dictionary) (name : String) (s : Call) : Stored Call Unit :=
  match move with
  | .nothing => (.ok (), s)
  | .delete =>
    let (outcome, s) := s.perform (fun _ => false) (deleteEntryNamed d name)
    (outcome.map fun _ => (), s)
  | .dropTable => s.perform (fun _ => false) (dropTable (.dictionary d))
  | .cancel => (.ok (), { s with signal := s.signal.cancel })

/-- Looks a name up; right after the first time, if that went well, the rival creates it. If the
rival fails, the look-up fails with its error. -/
def find (id : Option Int) (d : Dictionary) (name : String) (s : Contested) :
    Stored Contested (Option Int) :=
  match s.call.findId d name with
  | (.error e, call) => (.error e, { s with call })
  | (.ok found, call) =>
    if s.waiting then
      let (outcome, call) := rivalCreates id d name call
      (outcome.map fun _ => found, ⟨call, false⟩)
    else (.ok found, { s with call })

/-- Creates a name; then the rival moves. If the rival fails, the creation fails with its error. -/
def insert (move : RivalMove) (d : Dictionary) (name : String) (s : Contested) :
    Stored Contested Int :=
  let (reply, call) := s.call.insertName d name
  let (outcome, call) := rivalMoves move d name call
  (outcome.bind fun _ => reply, { s with call })

/-- The contested store of names. -/
def names (id : Option Int) (move : RivalMove) : NameStore Contested where
  find := find id
  insert := insert move
  tell := fun e s => { s with call := s.call.tell e }

end Contested

/-- The id of a name, found or created against a rival. -/
def Call.resolveAgainst (id : Option Int) (move : RivalMove) (d : Dictionary) (name : String)
    (s : Call) : Answered Call Int :=
  let (outcome, s) := (Contested.names id move).resolve d name ⟨s, true⟩
  (outcome, s.call)

/-- A reply given in advance, for a look-up, for an insertion, or for whichever of them comes. -/
structure ScriptedReply where
  find : Option (Except StoreError (Option Int)) := none
  insert : Option (Except StoreError Int) := none

/-- A call that the protocol made. -/
inductive StoreCall where
  | find (name : String)
  | insert (name : String)
  deriving DecidableEq, Repr

/-- A store of names that replies from a script. -/
structure Scripted where
  script : List ScriptedReply
  calls : List StoreCall := []
  events : List Event := []

namespace Scripted

/-- A failure of the script itself. -/
def broken {α : Type} (message : String) : Except StoreError α :=
  .error (.fault (.reported (.ofExtended 1) 1 message))

/-- The next reply of the script, which has to be one for the call that was made. -/
def next {α : Type} (made : StoreCall) (reply : ScriptedReply → Option (Except StoreError α))
    (s : Scripted) : Stored Scripted α :=
  let calls := s.calls ++ [made]
  match s.script with
  | [] => (broken "script exhausted", { s with calls })
  | r :: script => ((reply r).getD (broken "script mismatch"), { s with calls, script })

/-- The reply to a look-up. -/
def find (_ : Dictionary) (name : String) : Scripted → Stored Scripted (Option Int) :=
  next (.find name) ScriptedReply.find

/-- The reply to an insertion. -/
def insert (_ : Dictionary) (name : String) : Scripted → Stored Scripted Int :=
  next (.insert name) ScriptedReply.insert

/-- The scripted store of names. -/
def names : NameStore Scripted where
  find := find
  insert := insert
  tell := fun e s => { s with events := s.events ++ [e] }

end Scripted

end JobBoard
