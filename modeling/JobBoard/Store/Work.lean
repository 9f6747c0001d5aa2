import JobBoard.Model.Dictionary

/-!
# The work of statements

A statement runs in steps, and once in so many steps the connection looks whether it is to give the
statement up. The steps are counted over all runs of a statement that is kept prepared, so even a
short one is looked at in some run. A look takes place where the statement can be left: before its
rows, after each of them, and at its end, when its outcome is settled.
-/

namespace JobBoard.Store

/-- How the steps of a statement are spread: those before its first row, those of each row, and
those behind the last point at which it can still be undone. -/
structure Work where
  before : Nat := 0
  each : Nat := 0
  after : Nat := 0
  deriving DecidableEq, Repr

/-- A look that a connection takes while a statement runs: which one it is, the steps and the rows
that the statement has behind it, and whether its outcome is settled. -/
structure Look where
  number : Nat
  steps : Nat
  rows : Nat
  settled : Bool
  deriving DecidableEq, Repr

/-- The steps between two looks. -/
def lookSteps : Nat := 1000

namespace Work

/-- The steps of a statement that writes some rows. -/
def total (w : Work) (rows : Nat) : Nat := w.before + w.each * rows + w.after

/-- The look that is due at a step. It takes place at the next point at which the statement can be
left. -/
def look (w : Work) (rows number due : Nat) : Look :=
  if due ≤ w.before then { number, steps := w.before, rows := 0, settled := false }
  else if due ≤ w.before + w.each * rows then
    let written := (due - w.before - 1) / w.each + 1
    { number, steps := w.before + w.each * written, rows := written, settled := false }
  else { number, steps := w.total rows, rows, settled := true }

/-- The looks at a run of a statement that has taken some steps in earlier runs. -/
def looks (w : Work) (rows taken : Nat) : List Look :=
  let behind := taken % lookSteps
  (List.range ((behind + w.total rows) / lookSteps)).map fun i =>
    w.look rows (i + 1) (lookSteps * (i + 1) - behind)

end Work

/-- What becomes of a statement after a run: it was prepared for this run only, or it is the
insertion into a dictionary, which the connection keeps, or the insertion of edges, which an
attachment prepares once for all its edges. -/
inductive Prepared where
  | once
  | entry (d : Dictionary)
  | edge
  deriving DecidableEq, Repr

/-- The steps that statements have taken so far. -/
abbrev Taken := List (Prepared × Nat)

namespace Taken

/-- The steps that a statement has taken in earlier runs. -/
def ofStatement (t : Taken) : Prepared → Nat
  | .once => 0
  | p => (t.lookup p).getD 0

/-- The steps of all statements but one. -/
def without (t : Taken) (p : Prepared) : Taken := t.filter (·.1 != p)

/-- The steps after a statement has taken some more. -/
def advance (t : Taken) (p : Prepared) (steps : Nat) : Taken :=
  (p, t.ofStatement p + steps) :: t.without p

end Taken

end JobBoard.Store
