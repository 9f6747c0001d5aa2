import JobBoard.Call.Search
import JobBoard.Settings
import JobBoard.Wire.Value

/-!
# Records on the wire

How the records of the board are written as wire values, and which wire values they are read from.
Searches and settings may leave out any field, which then has its default; entries, edges and
summaries have to be complete. Fields of other names are ignored.
-/

namespace JobBoard.Wire

open Search Value

/-- A form of employment. -/
def employment? : Value → Option Employment := oneOf? Employment.text Employment.all

/-- A band of experience. -/
def experience? : Value → Option Experience := oneOf? Experience.text Experience.all

/-- A dictionary. -/
def dictionary? : Value → Option Dictionary := oneOf? Dictionary.text Dictionary.all

/-- A kind of edge. -/
def edgeKind? : Value → Option EdgeKind := oneOf? EdgeKind.text EdgeKind.all

/-- The field names of search criteria. -/
def criteriaFields : List String :=
  ["free_text", "category_ids", "min_value", "employment_types", "experience_levels", "limit",
    "offset"]

/-- Search criteria. -/
def criteria? (v : Value) : Option Criteria :=
  match v.parts? criteriaFields with
  | some [freeText, categories, least, employments, experiences, limit, offset] => do
    let freeText ← possibly text? freeText
    let categoryIds ← possibly (listOf? id?) categories
    let minValue ← possibly id? least
    let employmentTypes ← possibly (listOf? employment?) employments
    let experienceLevels ← possibly (listOf? experience?) experiences
    let limit ← orElse 0 count32? limit
    let offset ← orElse 0 count32? offset
    some { freeText, categoryIds, minValue, employmentTypes, experienceLevels, limit, offset }
  | _ => none

/-- The field names of a search request. -/
def searchRequestFields : List String :=
  ["query", "specializations", "min_salary", "employment", "experience", "limit", "offset"]

/-- A search request. -/
def searchRequest? (v : Value) : Option SearchRequest :=
  match v.parts? searchRequestFields with
  | some [query, specializations, minSalary, employment, experience, limit, offset] => do
    let query ← possibly text? query
    let specializations ← orElse [] (listOf? text?) specializations
    let minSalary ← possibly id? minSalary
    let employment ← orElse [] (listOf? text?) employment
    let experience ← orElse [] (listOf? text?) experience
    let limit ← orElse 0 count32? limit
    let offset ← orElse 0 count32? offset
    some { query, specializations, minSalary, employment, experience, limit, offset }
  | _ => none

/-- A search request, written out. -/
def ofSearchRequest (r : SearchRequest) : Value :=
  .record [("query", ofOption .text r.query),
    ("specializations", ofList .text r.specializations),
    ("min_salary", ofOption .whole r.minSalary), ("employment", ofList .text r.employment),
    ("experience", ofList .text r.experience), ("limit", .whole r.limit),
    ("offset", .whole r.offset)]

/-- Bounds of a page. -/
def searchLimits? (v : Value) : Option SearchLimits :=
  match v.parts? ["default_limit", "max_limit"] with
  | some [least, greatest] => do
    let defaultLimit ← orElse ({} : SearchLimits).defaultLimit count32? least
    let maxLimit ← orElse ({} : SearchLimits).maxLimit count32? greatest
    some { defaultLimit, maxLimit }
  | _ => none

/-- Options of a connection. -/
def databaseSettings? (v : Value) : Option DatabaseSettings :=
  match v.parts? ["busy_timeout_ms", "wal"] with
  | some [busy, wal] => do
    let busyTimeoutMs ← orElse ({} : DatabaseSettings).busyTimeoutMs count64? busy
    let wal ← orElse ({} : DatabaseSettings).wal flag? wal
    some { busyTimeoutMs, wal }
  | _ => none

/-- The configuration of the board. -/
def settings? (v : Value) : Option Settings :=
  match v.parts? ["log_level", "log_dir", "database", "search"] with
  | some [level, folder, database, search] => do
    let logLevel ← orElse defaultLogLevel text? level
    let logDir ← possibly text? folder
    let database ← orElse {} databaseSettings? database
    let search ← orElse {} searchLimits? search
    some { logLevel, logDir, database, search }
  | _ => none

/-- An entry. -/
def entryOf? (v : Value) : Option Entry :=
  match v.parts? ["id", "name"] with
  | some [id, name] => do
    let id ← needed id? id
    let name ← needed text? name
    some { id, name }
  | _ => none

/-- An entry, written out. -/
def ofEntry (e : Entry) : Value := .record [("id", .whole e.id), ("name", .text e.name)]

/-- An edge. -/
def edge? (v : Value) : Option Edge :=
  match v.parts? ["owner_id", "lookup_id"] with
  | some [owner, entry] => do
    let owner ← needed id? owner
    let entry ← needed id? entry
    some { owner, entry }
  | _ => none

/-- An edge, written out. -/
def ofEdge (e : Edge) : Value :=
  .record [("owner_id", .whole e.owner), ("lookup_id", .whole e.entry)]

/-- The field names of a vacancy's summary. -/
def summaryFields : List String :=
  ["id", "title", "employer_id", "company_name", "specialization", "employment", "experience",
    "salary_from", "salary_to", "created_at", "updated_at"]

/-- The summary of a vacancy. -/
def summary? (v : Value) : Option VacancySummary :=
  match v.parts? summaryFields with
  | some [id, title, employer, company, specialization, employment, experience, lower, upper,
      created, updated] => do
    let id ← needed id? id
    let title ← needed text? title
    let employerId ← needed id? employer
    let companyName ← needed text? company
    let specialization ← possibly text? specialization
    let employment ← needed employment? employment
    let experience ← needed experience? experience
    let salaryFrom ← possibly id? lower
    let salaryTo ← possibly id? upper
    let createdAt ← needed id? created
    let updatedAt ← needed id? updated
    some { id, title, employerId, companyName, specialization, employment, experience, salaryFrom,
           salaryTo, createdAt, updatedAt }
  | _ => none

/-- The summary of a vacancy, written out. -/
def ofSummary (s : VacancySummary) : Value :=
  .record [("id", .whole s.id), ("title", .text s.title), ("employer_id", .whole s.employerId),
    ("company_name", .text s.companyName), ("specialization", ofOption .text s.specialization),
    ("employment", .text s.employment.text), ("experience", .text s.experience.text),
    ("salary_from", ofOption .whole s.salaryFrom), ("salary_to", ofOption .whole s.salaryTo),
    ("created_at", .whole s.createdAt), ("updated_at", .whole s.updatedAt)]

end JobBoard.Wire
