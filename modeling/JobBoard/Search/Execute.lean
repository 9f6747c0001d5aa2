import JobBoard.Search.Composer
import JobBoard.Store.Effect
import JobBoard.Text.Lowercase

/-!
# Running a search

A composed statement is run on the tables. Each vacancy is joined to its employer and, where it has
one, its specialization; the conditions are judged in three-valued logic, cheap ones first; the rows
that remain are ordered newest first and the window is cut out. Only the rows of the window are
read.
-/

namespace JobBoard.Search

open Store

/-- A vacancy with the names that belong to it. -/
structure Joined where
  vacancy : Vacancy
  company : String
  specialization : Option String
  deriving DecidableEq, Repr

/-- The joined rows: a vacancy without its employer is left out. -/
def joinRows (vacancies : List Vacancy) (employers : List Employer) (entries : List Entry) :
    List Joined :=
  vacancies.filterMap fun v =>
    (employers.find? (·.id == v.employerId)).map fun e =>
      ⟨v, e.companyName, v.specializationId.bind fun id =>
        (entries.find? (·.id == id)).map Entry.name⟩

/-- The value of a text column. -/
def TextColumn.value (j : Joined) : TextColumn → Option String
  | .title => some j.vacancy.title
  | .specialization => j.specialization
  | .company => some j.company

/-- The value of a list column. -/
def ListColumn.value (j : Joined) : ListColumn → Option Argument
  | .specialization => j.vacancy.specializationId.map .integer
  | .employment => some (.text j.vacancy.employment)
  | .experience => some (.text j.vacancy.experience)

/-- The argument of a placeholder; placeholders count from one. -/
def argument? (arguments : List Argument) (slot : Nat) : Option Argument := arguments[slot - 1]?

/-- A truth value that may be unknown. -/
abbrev Truth := Option Bool

/-- True if one is, false if both are, unknown otherwise. -/
def Truth.or : Truth → Truth → Truth
  | some true, _ => some true
  | _, some true => some true
  | some false, some false => some false
  | _, _ => none

/-- Whether a value, lowercased, matches a pattern; unknown for a missing value. -/
def likeTruth (pattern : String) (value : Option String) : Truth :=
  value.map fun s => Text.like pattern.toList (Text.lowerList s.toList)

/-- The truth of a condition for a row. A pattern that is too long is refused as soon as it is tried
on a row. -/
def Condition.truth (arguments : List Argument) (j : Joined) : Condition → Except Refusal Truth
  | .anyLike first =>
    (TextColumn.all.zip (List.range' first 3)).foldlM
      (fun (sofar : Truth) p =>
        match argument? arguments p.2 with
        | some (.text pattern) =>
          if sofar = some true then .ok sofar
          else if Text.patternByteLimit < pattern.utf8ByteSize then .error .patternTooLong
          else .ok (sofar.or (likeTruth pattern (p.1.value j)))
        | _ => .ok (sofar.or none))
      (some false)
  | .among column first count =>
    .ok ((column.value j).map fun v => ((arguments.drop (first - 1)).take count).contains v)
  | .salaryAtLeast slot =>
    .ok (match j.vacancy.salaryFrom, argument? arguments slot with
      | some n, some (.integer floor) => some (decide (floor ≤ n))
      | _, _ => none)

/-- Whether a condition looks at texts; those are judged last. -/
def Condition.isCostly : Condition → Bool
  | .anyLike _ => true
  | _ => false

/-- Whether a row satisfies all of some conditions; the first that is not true settles it. -/
def satisfies (arguments : List Argument) (j : Joined) : List Condition → Except Refusal Bool
  | [] => .ok true
  | c :: rest =>
    match c.truth arguments j with
    | .error cause => .error cause
    | .ok t => if t = some true then satisfies arguments j rest else .ok false

/-- The conditions in the order in which they are judged. -/
def judged (cs : List Condition) : List Condition :=
  cs.filter (!·.isCostly) ++ cs.filter (·.isCostly)

/-- The rows that satisfy all conditions. -/
def selectRows (q : Composed) : List Joined → Except Refusal (List Joined)
  | [] => .ok []
  | j :: rest =>
    match satisfies q.arguments j (judged q.statement.conditions) with
    | .error cause => .error cause
    | .ok keep =>
      match selectRows q rest with
      | .error cause => .error cause
      | .ok kept => .ok (if keep then j :: kept else kept)

/-- Newest first; of vacancies changed at one time the later created first. -/
def newerFirst (a b : Joined) : Bool :=
  b.vacancy.updatedAt < a.vacancy.updatedAt ||
    (a.vacancy.updatedAt == b.vacancy.updatedAt && b.vacancy.id ≤ a.vacancy.id)

/-- The number bound to a placeholder of the window. -/
def windowNumber (arguments : List Argument) (slot : Nat) : Nat :=
  match argument? arguments slot with
  | some (.integer n) => n.toNat
  | _ => 0

/-- The window of the ordered rows. -/
def window (q : Composed) (rows : List Joined) : List Joined :=
  ((rows.mergeSort newerFirst).drop (windowNumber q.arguments q.statement.offsetSlot)).take
    (windowNumber q.arguments q.statement.limitSlot)

/-- The joined rows of a search, or why the statement cannot be compiled: a table is missing (the
first one is named), a column is, or the text filter's function is. -/
def Composed.source (q : Composed) (foldsCase : Bool) (db : Database) :
    Except Refusal (List Joined) :=
  match db.occupant .vacancy, db.occupant .employer, db.occupant (.dictionary .specialization) with
  | .vacant, _, _ => .error (.noTable TableName.vacancy.text)
  | _, .vacant, _ => .error (.noTable TableName.employer.text)
  | _, _, .vacant => .error (.noTable Dictionary.specialization.text)
  | .standIn _, _, _ => .error (.noColumn "v.title")
  | _, .standIn _, _ => .error (.noColumn "e.company_name")
  | _, _, .standIn _ => .error (.noColumn "s.name")
  | .own vacancies, .own employers, .own entries =>
    if q.statement.conditions.any (·.isCostly) && !foldsCase then .error (.noFunction "fold_case")
    else .ok (joinRows vacancies.rows employers.rows entries.rows)

/-- The rows of the window. A pattern that is too long is refused only when a row is there to be
judged. -/
def Composed.rows (q : Composed) (foldsCase : Bool) : Query (List Joined) where
  parameters := q.arguments.length
  run := fun db =>
    (q.source foldsCase db).map fun rows => (selectRows q rows).map (window q)

/-- A row as a summary; a text outside its closed list cannot be read. -/
def Joined.summary (j : Joined) : Except StoreFault VacancySummary :=
  match Employment.parse j.vacancy.employment with
  | .error u => .error (.unreadable 5 u)
  | .ok employment =>
    match Experience.parse j.vacancy.experience with
    | .error u => .error (.unreadable 6 u)
    | .ok experience =>
      .ok {
        id := j.vacancy.id
        title := j.vacancy.title
        employerId := j.vacancy.employerId
        companyName := j.company
        specialization := j.specialization
        employment
        experience
        salaryFrom := j.vacancy.salaryFrom
        salaryTo := j.vacancy.salaryTo
        createdAt := j.vacancy.createdAt
        updatedAt := j.vacancy.updatedAt }

/-- All rows as summaries, or the fault of the first that cannot be read. -/
def summaries : List Joined → Except StoreFault (List VacancySummary)
  | [] => .ok []
  | j :: rest =>
    match j.summary with
    | .error f => .error f
    | .ok s =>
      match summaries rest with
      | .error f => .error f
      | .ok ss => .ok (s :: ss)

end JobBoard.Search
