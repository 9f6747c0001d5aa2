import JobBoard.Call.Names
import JobBoard.Search.Execute
import JobBoard.Settings

/-!
# Search calls

A search by criteria, and a search by a request in the words of a caller. A page is returned whole
or not at all. A request that names specializations never widens to all vacancies, even if none of
the names is known.
-/

namespace JobBoard

open Observe Search Store

/-- A search request in the words of a caller. -/
structure SearchRequest where
  query : Option String := none
  specializations : List String := []
  minSalary : Option Int := none
  employment : List String := []
  experience : List String := []
  limit : Nat := 0
  offset : Nat := 0
  deriving DecidableEq, Repr

/-- All texts parsed, or the complaint about the first that names nothing. -/
def parseEach {α : Type} (parse : String → Except UnknownValue α) :
    List String → Except UnknownValue (List α)
  | [] => .ok []
  | s :: rest =>
    match parse (Text.trim s) with
    | .error u => .error u
    | .ok a =>
      match parseEach parse rest with
      | .error u => .error u
      | .ok as => .ok (a :: as)

/-- The lists of a request, parsed, or why the request is bad. -/
def SearchRequest.validate (r : SearchRequest) :
    Except BoardError (List Employment × List Experience) :=
  match r.minSalary.filter (· < 0) with
  | some floor => .error (.badRequest ("min_salary must not be negative, got " ++ toString floor))
  | none =>
    match parseEach Employment.parse r.employment with
    | .error u => .error (.badRequest u.message)
    | .ok employment =>
      match parseEach Experience.parse r.experience with
      | .error u => .error (.badRequest u.message)
      | .ok experience => .ok (employment, experience)

namespace Call

/-- The statement of a search within limits. -/
def composeWithin (limits : SearchLimits) (c : Criteria) : Composed :=
  compose { c with limit := limits.normalize c.limit }

/-- Runs a composed search and reads its rows. -/
def runSearch (q : Composed) (s : Call) : Answered Call (List VacancySummary) :=
  match during .search (s.ask (q.rows s.connection.foldsCase)) with
  | (.error e, s) => (.error e, s)
  | (.ok rows, s) =>
    match summaries rows with
    | .error f => (.error (.internal Activity.search.text (some (.fault f))), s)
    | .ok page => (.ok page, s.note (.searched q.arguments.length page.length))

/-- One page of the vacancies that match, newest first. -/
def search (limits : SearchLimits) (c : Criteria) : Call → Answered Call (List VacancySummary) :=
  observed tell .search (runSearch (composeWithin limits c))

/-- The specializations of a request as ids: nothing asked for, or those of the names that exist. -/
def requestedIds (names : List String) (s : Call) : Answered Call (Option (List Int)) :=
  match names with
  | [] => (.ok none, s)
  | _ =>
    match s.findIdsByNames .specialization names with
    | (.error e, s) => (.error e, s)
    | (.ok ids, s) => (.ok (some ids), s)

/-- One page of the vacancies that a request asks for. -/
def searchFor (limits : SearchLimits) (r : SearchRequest) (s : Call) :
    Answered Call (List VacancySummary) :=
  match r.validate with
  | .error e => (.error e, s)
  | .ok (employment, experience) =>
    match s.requestedIds (normalizeNames r.specializations) with
    | (.error e, s) => (.error e, s)
    | (.ok (some []), s) => (.ok [], s)
    | (.ok ids, s) =>
      s.search limits {
        freeText := r.query
        categoryIds := ids
        minValue := r.minSalary
        employmentTypes := some employment
        experienceLevels := some experience
        limit := r.limit
        offset := r.offset }

end Call

end JobBoard
