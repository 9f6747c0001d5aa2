import JobBoard.Text.Blank
import JobBoard.Text.Lowercase

/-!
# Names

Free-form names as callers type them, and their normal form: no blank at either end, single spaces
inside, and in a list no two names that differ only in case.
-/

namespace JobBoard

open Text

/-- The items whose key has not occurred before, neither among `seen` nor earlier in the list. -/
def firstsBy {α β : Type} [BEq β] (key : α → β) (seen : List β) : List α → List α
  | [] => []
  | a :: rest =>
    if seen.contains (key a) then firstsBy key seen rest
    else a :: firstsBy key (key a :: seen) rest

/-- The characters of a name in normal form. -/
def normalizeList (cs : List Char) : List Char := collapse (trimList cs)

/-- A name in normal form; none when nothing but blanks was given. -/
def normalizeName (name : String) : Option String :=
  match normalizeList name.toList with
  | [] => none
  | cs => some (String.ofList cs)

/-- The normal forms of a list of names in their order, blanks dropped; of names that differ only in
case the first spelling stays. -/
def normalizeNames (names : List String) : List String :=
  firstsBy lowercase [] (names.filterMap normalizeName)

end JobBoard
