import JobBoard.Call.Edges
import JobBoard.Call.Names

/-!
# Attaching names

Names, rather than ids, are attached to an owner. All of them are resolved before the first edge is
written.
-/

namespace JobBoard.Call

/-- Attaches names to an owner, creating those that are missing. Answers their ids in order. -/
def attachNames (k : EdgeKind) (owner : Int) (list : List String) (s : Call) :
    Answered Call (List Int) :=
  match normalizeNames list with
  | [] => (.ok [], s)
  | usable =>
    match s.resolveAll k.dictionary usable with
    | (.error e, s) => (.error e, s)
    | (.ok ids, s) =>
      match s.associate k owner ids with
      | (.error e, s) => (.error e, s)
      | (.ok (), s) => (.ok ids, s)

/-- Detaches everything from an owner and attaches names instead, in two steps. -/
def replaceNames (k : EdgeKind) (owner : Int) (list : List String) (s : Call) :
    Answered Call (List Int) :=
  match s.clearOwner k owner with
  | (.error e, s) => (.error e, s)
  | (.ok _, s) => s.attachNames k owner list

/-- The entries attached to an owner, by increasing name. -/
def attached (k : EdgeKind) (owner : Int) : Call → Answered Call (List Entry) :=
  listForOwner k owner

end JobBoard.Call
