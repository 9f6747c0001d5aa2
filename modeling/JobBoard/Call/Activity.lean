import JobBoard.Model.EdgeKind

/-!
# Activities

What the board was doing when the store failed. The wording of an activity names tables only.
-/

namespace JobBoard

/-- A step of an operation that can fail. -/
inductive Activity where
  | find (d : Dictionary)
  | create (d : Dictionary)
  | reread (d : Dictionary)
  | vanished (d : Dictionary)
  | getOne (d : Dictionary)
  | getMany (d : Dictionary)
  | listAll (d : Dictionary)
  | findNames (d : Dictionary)
  | start (k : EdgeKind)
  | begin (k : EdgeKind)
  | prepare (k : EdgeKind)
  | add (k : EdgeKind)
  | finish (k : EdgeKind)
  | commit (k : EdgeKind)
  | listEdges (k : EdgeKind)
  | clearEdges (k : EdgeKind)
  | search
  deriving DecidableEq, Repr

/-- The wording of a failed activity. -/
def Activity.text : Activity → String
  | .find d => "failed to look up " ++ d.text ++ " by name"
  | .create d => "failed to create " ++ d.text
  | .reread d => "failed to re-read " ++ d.text ++ " after uniqueness conflict"
  | .vanished d => d.text ++ " missing on re-read after uniqueness conflict"
  | .getOne d => "failed to get " ++ d.text ++ " by id"
  | .getMany d => "failed to get " ++ d.text ++ " rows by ids"
  | .listAll d => "failed to list " ++ d.text ++ " rows"
  | .findNames d => "failed to look up " ++ d.text ++ " by names"
  | .start k => k.text ++ " association not started"
  | .begin k => "failed to begin " ++ k.text ++ " transaction"
  | .prepare k => "failed to prepare " ++ k.text ++ " insert"
  | .add k => "failed to add " ++ k.text ++ " edge"
  | .finish k => k.text ++ " association abandoned before commit"
  | .commit k => "failed to commit " ++ k.text ++ " edges"
  | .listEdges k => "failed to list " ++ k.text ++ " edges"
  | .clearEdges k => "failed to clear " ++ k.text ++ " edges"
  | .search => "failed to search vacancies"

end JobBoard
