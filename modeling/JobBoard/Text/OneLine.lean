/-!
# One-line text

Text that may come from a caller or a store is flattened to one line and cut before it is logged.
-/

namespace JobBoard.Text

/-- A line break, of either kind, as a space. -/
def flattenChar (c : Char) : Char := if c = '\n' ∨ c = '\r' then ' ' else c

/-- The first `limit` characters on one line, with three dots when something was cut. -/
def oneLineList (limit : Nat) (cs : List Char) : List Char :=
  let flat := cs.map flattenChar
  if limit < flat.length then flat.take limit ++ ['.', '.', '.'] else flat

/-- The text on one line, cut after `limit` characters. -/
def oneLine (limit : Nat) (s : String) : String := String.ofList (oneLineList limit s.toList)

end JobBoard.Text
