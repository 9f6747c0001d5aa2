import JobBoard.Model.Vacancy
import JobBoard.Store.Database

/-!
# Relations

What the schema says about each table: its columns, the rules that its rows keep, the columns in
which two rows may not agree, and the rows that a row refers to. A rule is a predicate on rows
together with the text that errors quote.
-/

namespace JobBoard.Store

/-- A column. The fallback stands in when an insertion does not name the column. -/
structure Column where
  name : String
  type : ColumnType
  required : Bool := true
  fallback : Cell := .null
  deriving DecidableEq, Repr

/-- A rule on the rows of a table; it looks at one column. -/
structure Rule (α : Type) where
  text : String
  column : String
  holds : α → Bool

/-- Columns in which no two rows agree. -/
structure Unique (α : Type) where
  isRowId : Bool
  columns : List String
  agree : α → α → Bool

/-- A reference to a row of another table. Removing that row removes the referring row too, or is
refused, or is judged at the commit. -/
structure Reference (α : Type) where
  column : String
  target : TableName
  key : α → Option Int
  cascades : Bool := false
  deferred : Bool := false

/-- What the schema says about a table. The references stand in the order in which they are checked,
last declared first. -/
structure Relation (α : Type) where
  columns : List Column
  cells : α → List Cell
  ofCells : List Cell → Option α
  rules : List (Rule α)
  uniques : List (Unique α)
  references : List (Reference α)
  indexes : List String := []

/-- Whether a text has a character other than the space before its first NUL. -/
def isWritten (s : String) : Bool :=
  !(Text.untilNul ((s.toList.dropWhile (· == ' ')).reverse.dropWhile (· == ' ')).reverse).isEmpty

/-- The rule that a text is written. -/
def writtenRule {α : Type} (column : String) (get : α → String) : Rule α :=
  ⟨"length(trim(" ++ column ++ ")) > 0", column, fun a => isWritten (get a)⟩

/-- A list of allowed texts as rules quote it. -/
def quotedList (texts : List String) : String :=
  ", ".intercalate (texts.map fun t => "'" ++ t ++ "'")

/-- The rule that a text is one of a list. -/
def memberRule {α : Type} (column : String) (texts : List String) (get : α → String) :
    Rule α :=
  ⟨column ++ " IN (" ++ quotedList texts ++ ")", column, fun a => texts.contains (get a)⟩

/-- The rule that an amount is absent or not negative. -/
def amountRule {α : Type} (column : String) (get : α → Option Int) : Rule α :=
  ⟨column ++ " IS NULL OR " ++ column ++ " >= 0", column, fun a => (get a).all (0 ≤ ·)⟩

/-- The rule that an id is positive. -/
def positiveRule {α : Type} (column : String) (get : α → Int) : Rule α :=
  ⟨column ++ " > 0", column, fun a => 0 < get a⟩

/-- Row ids are unique. -/
def uniqueRowId {α : Type} (id : α → Int) : Unique α :=
  ⟨true, ["id"], fun a b => id a == id b⟩

/-- The column of row ids. -/
def idColumn : Column := ⟨"id", .integer, false, .null⟩

/-- A column that needs a value. -/
def required (name : String) (type : ColumnType) : Column := ⟨name, type, true, .null⟩

/-- A column that may stay empty. -/
def optional (name : String) (type : ColumnType) : Column := ⟨name, type, false, .null⟩

/-- The two time columns. -/
def timeColumns : List Column :=
  [⟨"created_at", .integer, true, .integer 0⟩, ⟨"updated_at", .integer, true, .integer 0⟩]

/-- An optional number as a cell. -/
def optionalInteger : Option Int → Cell
  | some n => .integer n
  | none => .null

/-- A cell as an optional number. -/
def Cell.optionalInteger? : Cell → Option (Option Int)
  | .integer n => some (some n)
  | .null => some none
  | _ => none

/-- A dictionary: ids and names are unique, and a name is written. -/
def dictionaryRelation : Relation Entry where
  columns := [idColumn, required "name" .text]
  cells := fun e => [.integer e.id, .text e.name]
  ofCells
    | [.integer id, .text name] => some ⟨id, name⟩
    | _ => none
  rules := [writtenRule "name" Entry.name]
  uniques := [uniqueRowId Entry.id, ⟨false, ["name"], fun a b => a.name == b.name⟩]
  references := []

/-- Employers. -/
def employerRelation : Relation Employer where
  columns := [idColumn, required "company_name" .text] ++ timeColumns
  cells := fun e => [.integer e.id, .text e.companyName, .integer e.createdAt, .integer e.updatedAt]
  ofCells
    | [.integer id, .text name, .integer created, .integer updated] =>
      some ⟨id, name, created, updated⟩
    | _ => none
  rules := [writtenRule "company_name" Employer.companyName]
  uniques := [uniqueRowId Employer.id]
  references := []

/-- Applicants. -/
def applicantRelation : Relation Applicant where
  columns := [idColumn, required "first_name" .text, required "last_name" .text] ++ timeColumns
  cells := fun a => [.integer a.id, .text a.firstName, .text a.lastName, .integer a.createdAt,
    .integer a.updatedAt]
  ofCells
    | [.integer id, .text first, .text last, .integer created, .integer updated] =>
      some ⟨id, first, last, created, updated⟩
    | _ => none
  rules := []
  uniques := [uniqueRowId Applicant.id]
  references := []

/-- Vacancies. -/
def vacancyRelation : Relation Vacancy where
  columns := [idColumn, required "employer_id" .integer, optional "specialization_id" .integer,
    required "title" .text, ⟨"is_active", .integer, true, .integer 1⟩,
    required "employment" .text, required "experience" .text, optional "salary_from" .integer,
    optional "salary_to" .integer] ++ timeColumns
  cells := fun v => [.integer v.id, .integer v.employerId, optionalInteger v.specializationId,
    .text v.title, .integer v.isActive, .text v.employment, .text v.experience,
    optionalInteger v.salaryFrom, optionalInteger v.salaryTo, .integer v.createdAt,
    .integer v.updatedAt]
  ofCells
    | [.integer id, .integer employer, specialization, .text title, .integer active,
        .text employment, .text experience, low, high, .integer created, .integer updated] =>
      match specialization.optionalInteger?, low.optionalInteger?, high.optionalInteger? with
      | some specialization, some low, some high =>
        some ⟨id, employer, specialization, title, active, employment, experience, low, high,
          created, updated⟩
      | _, _, _ => none
    | _ => none
  rules := [
    writtenRule "title" Vacancy.title,
    ⟨"is_active IN (0, 1)", "is_active", fun v => v.isActive == 0 || v.isActive == 1⟩,
    memberRule "employment" (Employment.all.map Employment.text) Vacancy.employment,
    memberRule "experience" (Experience.all.map Experience.text) Vacancy.experience,
    amountRule "salary_from" Vacancy.salaryFrom,
    amountRule "salary_to" Vacancy.salaryTo]
  uniques := [uniqueRowId Vacancy.id]
  references := [
    ⟨"specialization_id", .dictionary .specialization, Vacancy.specializationId, false, false⟩,
    ⟨"employer_id", .employer, fun v => some v.employerId, true, false⟩]
  indexes := ["vacancy_recency_idx", "vacancy_specialization_idx"]

/-- Resumes. -/
def resumeRelation : Relation Resume where
  columns := [idColumn, required "applicant_id" .integer, required "profession" .text] ++
    timeColumns
  cells := fun r => [.integer r.id, .integer r.applicantId, .text r.profession,
    .integer r.createdAt, .integer r.updatedAt]
  ofCells
    | [.integer id, .integer applicant, .text profession, .integer created, .integer updated] =>
      some ⟨id, applicant, profession, created, updated⟩
    | _ => none
  rules := []
  uniques := [uniqueRowId Resume.id]
  references := [⟨"applicant_id", .applicant, fun r => some r.applicantId, true, false⟩]

/-- A join table: both ids are positive and exist, and every pair occurs once. -/
def edgeRelation (k : EdgeKind) (relaxed : Bool) : Relation Edge where
  columns := [required k.ownerColumn .integer, required k.entryColumn .integer]
  cells := fun e => [.integer e.owner, .integer e.entry]
  ofCells
    | [.integer owner, .integer entry] => some ⟨owner, entry⟩
    | _ => none
  rules :=
    if relaxed then []
    else [positiveRule k.ownerColumn Edge.owner, positiveRule k.entryColumn Edge.entry]
  uniques := [⟨false, [k.ownerColumn, k.entryColumn], fun a b => a == b⟩]
  references := [
    ⟨k.entryColumn, .dictionary k.dictionary, fun e => some e.entry, false, relaxed⟩,
    ⟨k.ownerColumn, .ofOwner k.owner, fun e => some e.owner, !relaxed, false⟩]
  indexes :=
    match k with
    | .resumeSkill => ["resume_skill_skill_idx"]
    | .resumeSpecialization => []
    | .vacancySkill => ["vacancy_skill_skill_idx"]
    | .vacancyCity => ["vacancy_city_city_idx"]

/-- What the schema says about a table. -/
def relation : (t : TableName) → (relaxed : Bool) → Relation t.Row
  | .dictionary _, _ => dictionaryRelation
  | .employer, _ => employerRelation
  | .applicant, _ => applicantRelation
  | .vacancy, _ => vacancyRelation
  | .resume, _ => resumeRelation
  | .edges k, relaxed => edgeRelation k relaxed

/-- Whether the rows of a table have row ids of their own. -/
def TableName.hasRowId : TableName → Bool
  | .edges _ => false
  | _ => true

/-- The row ids of a table. -/
def Database.ids (db : Database) : TableName → List Int
  | .dictionary d => (db.rows (.dictionary d)).map Entry.id
  | .employer => (db.rows .employer).map Employer.id
  | .applicant => (db.rows .applicant).map Applicant.id
  | .vacancy => (db.rows .vacancy).map Vacancy.id
  | .resume => (db.rows .resume).map Resume.id
  | .edges _ => []

/-- Whether a table has a row of a given id. -/
def Database.hasId (db : Database) (t : TableName) (id : Int) : Bool := (db.ids t).contains id

end JobBoard.Store
