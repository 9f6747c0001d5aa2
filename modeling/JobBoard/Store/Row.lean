import JobBoard.Model.EdgeKind

/-!
# Tables and their rows

The eleven tables of the board, and the type of the rows of each. Rows hold whatever the column
types admit; the rules of a table are stated elsewhere, because they can be suspended.
-/

namespace JobBoard.Store

/-- A table of the board. -/
inductive TableName where
  | dictionary (d : Dictionary)
  | employer
  | applicant
  | vacancy
  | resume
  | edges (k : EdgeKind)
  deriving DecidableEq, Repr

namespace TableName

/-- All tables. -/
def all : List TableName :=
  Dictionary.all.map .dictionary ++ [.employer, .applicant, .vacancy, .resume] ++
    EdgeKind.all.map .edges

/-- The name of a table. -/
def text : TableName → String
  | .dictionary d => d.text
  | .employer => "employer"
  | .applicant => "applicant"
  | .vacancy => "vacancy"
  | .resume => "resume"
  | .edges k => k.text

/-- The table of a given name. -/
def ofText? (s : String) : Option TableName := all.find? (·.text == s)

/-- The table of an owner. -/
def ofOwner : Owner → TableName
  | .resume => .resume
  | .vacancy => .vacancy

end TableName

/-- An employer. -/
structure Employer where
  id : Int
  companyName : String
  createdAt : Int
  updatedAt : Int
  deriving DecidableEq, Repr

/-- An applicant. -/
structure Applicant where
  id : Int
  firstName : String
  lastName : String
  createdAt : Int
  updatedAt : Int
  deriving DecidableEq, Repr

/-- A vacancy as it is stored: its two closed lists are texts, which only a rule keeps in order. -/
structure Vacancy where
  id : Int
  employerId : Int
  specializationId : Option Int
  title : String
  isActive : Int
  employment : String
  experience : String
  salaryFrom : Option Int
  salaryTo : Option Int
  createdAt : Int
  updatedAt : Int
  deriving DecidableEq, Repr

/-- A resume. -/
structure Resume where
  id : Int
  applicantId : Int
  profession : String
  createdAt : Int
  updatedAt : Int
  deriving DecidableEq, Repr

/-- The type of the rows of a table. -/
@[reducible] def TableName.Row : TableName → Type
  | .dictionary _ => Entry
  | .employer => Employer
  | .applicant => Applicant
  | .vacancy => Vacancy
  | .resume => Resume
  | .edges _ => Edge

end JobBoard.Store
