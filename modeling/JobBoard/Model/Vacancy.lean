/-!
# Vacancies

The two closed lists of values that a vacancy carries, and the summary of a vacancy that a search
returns.
-/

namespace JobBoard

/-- The form of employment. -/
inductive Employment where
  | fullTime
  | partTime
  | contract
  | internship
  | freelance
  | watch
  deriving DecidableEq, Repr

namespace Employment

/-- All forms, in the order of the stored rule. -/
def all : List Employment := [.fullTime, .partTime, .contract, .internship, .freelance, .watch]

/-- The stored spelling. -/
def text : Employment → String
  | .fullTime => "full_time"
  | .partTime => "part_time"
  | .contract => "contract"
  | .internship => "internship"
  | .freelance => "freelance"
  | .watch => "watch"

end Employment

/-- The experience that a vacancy asks for. -/
inductive Experience where
  | noMatter
  | noExperience
  | oneToThreeYears
  | threeToSixYears
  | sixPlusYears
  deriving DecidableEq, Repr

namespace Experience

/-- All bands, in the order of the stored rule. -/
def all : List Experience :=
  [.noMatter, .noExperience, .oneToThreeYears, .threeToSixYears, .sixPlusYears]

/-- The stored spelling. -/
def text : Experience → String
  | .noMatter => "no_matter"
  | .noExperience => "no_experience"
  | .oneToThreeYears => "1_3_years"
  | .threeToSixYears => "3_6_years"
  | .sixPlusYears => "6_plus_years"

end Experience

/-- A text that names no value of a closed list. -/
structure UnknownValue where
  field : String
  value : String
  deriving DecidableEq, Repr

/-- The wording of the complaint. -/
def UnknownValue.message (u : UnknownValue) : String :=
  "unknown " ++ u.field ++ " value \x60" ++ u.value ++ "\x60"

/-- The form of employment with a given spelling. -/
def Employment.parse (s : String) : Except UnknownValue Employment :=
  match Employment.all.find? (·.text == s) with
  | some e => .ok e
  | none => .error ⟨"employment", s⟩

/-- The band with a given spelling. -/
def Experience.parse (s : String) : Except UnknownValue Experience :=
  match Experience.all.find? (·.text == s) with
  | some e => .ok e
  | none => .error ⟨"experience", s⟩

/-- What a search tells about a vacancy. -/
structure VacancySummary where
  id : Int
  title : String
  employerId : Int
  companyName : String
  specialization : Option String
  employment : Employment
  experience : Experience
  salaryFrom : Option Int
  salaryTo : Option Int
  createdAt : Int
  updatedAt : Int
  deriving DecidableEq, Repr

end JobBoard
