import JobBoard.Search.Criteria
import JobBoard.Text.Like

/-!
# Composed statements

Criteria become one statement with numbered placeholders and the arguments bound to them. Values
occur among the arguments only; the text of the statement depends on which filters there are and on
the lengths of the lists.
-/

namespace JobBoard.Search

/-- A value bound to a placeholder. -/
inductive Argument where
  | integer (n : Int)
  | text (s : String)
  deriving DecidableEq, Repr

/-- A column that a list filters. -/
inductive ListColumn where
  | specialization
  | employment
  | experience
  deriving DecidableEq, Repr

/-- The spelling of a column in a statement. -/
def ListColumn.text : ListColumn → String
  | .specialization => "v.specialization_id"
  | .employment => "v.employment"
  | .experience => "v.experience"

/-- A column that the text filter looks at. -/
inductive TextColumn where
  | title
  | specialization
  | company
  deriving DecidableEq, Repr

namespace TextColumn

/-- The columns in the order of their placeholders. -/
def all : List TextColumn := [.title, .specialization, .company]

/-- The spelling of a column in a statement. -/
def text : TextColumn → String
  | .title => "v.title"
  | .specialization => "s.name"
  | .company => "e.company_name"

end TextColumn

/-- One condition of a statement; `first` is its first placeholder. -/
inductive Condition where
  | anyLike (first : Nat)
  | among (column : ListColumn) (first count : Nat)
  | salaryAtLeast (slot : Nat)
  deriving DecidableEq, Repr

/-- A statement: conditions that all hold, and the placeholders of the window. -/
structure Statement where
  conditions : List Condition
  limitSlot : Nat
  offsetSlot : Nat
  deriving DecidableEq, Repr

/-- A statement and its arguments; placeholder `n` stands for the `n`-th. -/
structure Composed where
  statement : Statement
  arguments : List Argument
  deriving DecidableEq, Repr

/-- One filter as a condition, given the number of its first placeholder, and its arguments. -/
structure Filter where
  condition : Nat → Condition
  arguments : List Argument

/-- The pattern that finds a text in either case. -/
def patternOf (text : String) : String :=
  String.ofList (Text.containing (Text.lowerList text.toList))

/-- The filter on free text. -/
def textFilterOf (text : String) : Filter :=
  ⟨.anyLike, TextColumn.all.map fun _ => .text (patternOf text)⟩

/-- A filter by a list. -/
def listFilterOf (column : ListColumn) (arguments : List Argument) : Filter :=
  ⟨fun first => .among column first arguments.length, arguments⟩

/-- The filter on salaries. -/
def salaryFilterOf (floor : Int) : Filter := ⟨.salaryAtLeast, [.integer floor]⟩

/-- The filters that criteria ask for, in their fixed order. -/
def Criteria.filters (c : Criteria) : List Filter :=
  (c.textFilter.map textFilterOf).toList ++
  (c.categoryFilter.map fun ids => listFilterOf .specialization (ids.map .integer)).toList ++
  (c.minValue.map salaryFilterOf).toList ++
  (c.employmentFilter.map fun es =>
    listFilterOf .employment (es.map fun e => .text e.text)).toList ++
  (c.experienceFilter.map fun es =>
    listFilterOf .experience (es.map fun e => .text e.text)).toList

/-- Filters placed one after the other, the first placeholder being `next`. -/
def placeFilters (next : Nat) : List Filter → List Condition
  | [] => []
  | f :: rest => f.condition next :: placeFilters (next + f.arguments.length) rest

/-- The statement for criteria, whose limit is used as it stands. -/
def compose (c : Criteria) : Composed :=
  let values := c.filters.flatMap Filter.arguments
  { statement :=
      { conditions := placeFilters 1 c.filters
        limitSlot := values.length + 1
        offsetSlot := values.length + 2 }
    arguments := values ++ [.integer c.limit, .integer c.offset] }

/-- A placeholder. -/
def placeholder (n : Nat) : String := "?" ++ toString n

/-- So many placeholders from a number on. -/
def placeholders (first count : Nat) : String :=
  ", ".intercalate ((List.range' first count).map placeholder)

/-- The text filter on one column. -/
def likeText (column : TextColumn) (slot : Nat) : String :=
  "fold_case(" ++ column.text ++ ") LIKE " ++ placeholder slot ++ " ESCAPE '\\'"

/-- The text of a condition. -/
def Condition.render : Condition → String
  | .anyLike first =>
    "(" ++ " OR ".intercalate ((TextColumn.all.zip (List.range' first 3)).map fun p =>
      likeText p.1 p.2) ++ ")"
  | .among column first count => column.text ++ " IN (" ++ placeholders first count ++ ")"
  | .salaryAtLeast slot => "v.salary_from >= " ++ placeholder slot

/-- The part of the statement that is always the same. -/
def selectText : String :=
  "SELECT v.id, v.title, v.employer_id, e.company_name, s.name AS specialization, v.employment, " ++
  "v.experience, v.salary_from, v.salary_to, v.created_at, v.updated_at FROM vacancy v " ++
  "JOIN employer e ON e.id = v.employer_id " ++
  "LEFT JOIN specialization s ON s.id = v.specialization_id"

/-- The conditions as a clause; nothing when there are none. -/
def whereText : List Condition → String
  | [] => ""
  | cs => " WHERE " ++ " AND ".intercalate (cs.map Condition.render)

/-- The text of a statement. -/
def Statement.render (s : Statement) : String :=
  selectText ++ whereText s.conditions ++ " ORDER BY v.updated_at DESC, v.id DESC LIMIT " ++
    placeholder s.limitSlot ++ " OFFSET " ++ placeholder s.offsetSlot ++ ";"

end JobBoard.Search
