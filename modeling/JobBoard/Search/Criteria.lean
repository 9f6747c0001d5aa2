import JobBoard.Model.Vacancy
import JobBoard.Names

/-!
# Search criteria

The optional filters of a vacancy search and its window. An absent filter, an empty list and a blank
text all mean the same: no filter.
-/

namespace JobBoard.Search

/-- What to search for, and which part of the matches to return. -/
structure Criteria where
  freeText : Option String := none
  categoryIds : Option (List Int) := none
  minValue : Option Int := none
  employmentTypes : Option (List Employment) := none
  experienceLevels : Option (List Experience) := none
  limit : Nat := 0
  offset : Nat := 0
  deriving DecidableEq, Repr

/-- A list that filters: one with something in it. -/
def someList {α : Type} : Option (List α) → Option (List α)
  | some (a :: rest) => some (a :: rest)
  | _ => none

namespace Criteria

/-- The text to look for, without blanks at its ends. -/
def textFilter (c : Criteria) : Option String :=
  match c.freeText with
  | none => none
  | some s => if Text.trim s = "" then none else some (Text.trim s)

/-- The specializations that are asked for. -/
def categoryFilter (c : Criteria) : Option (List Int) := someList c.categoryIds

/-- The forms of employment that are asked for. -/
def employmentFilter (c : Criteria) : Option (List Employment) := someList c.employmentTypes

/-- The bands of experience that are asked for. -/
def experienceFilter (c : Criteria) : Option (List Experience) := someList c.experienceLevels

end Criteria

end JobBoard.Search
