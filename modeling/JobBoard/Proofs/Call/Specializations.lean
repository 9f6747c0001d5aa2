import JobBoard.Proofs.Call.Request

/-!
# What asking for specializations finds

A request that names specializations finds those of the other matches that have one of the names in
normal form (`exists_asked`). A spelling that no other entry of the request differs from only in
case is therefore found (`searchFor_finds_sole_spellings`). Of spellings that differ only in case
the first is asked for, and a match that has another of them is lost
(`not_searchFor_finds_all_spellings`).
-/

set_option autoImplicit false

namespace JobBoard

open Observe Search Store

namespace SearchRequest

/-- A summary has one of the specializations that a request names, if it names any. -/
def Asks (r : SearchRequest) (m : VacancySummary) : Prop :=
  normalizeNames r.specializations ≠ [] →
    ∃ name ∈ normalizeNames r.specializations, m.specialization = some name

instance (r : SearchRequest) (m : VacancySummary) : Decidable (r.Asks m) :=
  inferInstanceAs (Decidable (_ → _))

/-- The ids that the specializations of a request have in some tables. -/
def knownIds (r : SearchRequest) (db : Database) : List Int :=
  (normalizeNames r.specializations).filterMap (db.idOf? .specialization)

/-- What a request asks for fits into the statements that answer it. -/
structure Fitting (r : SearchRequest) (db : Database) : Prop where
  query : ∀ q, r.query = some q → Text.trim q ≠ "" →
    (patternOf (Text.trim q)).utf8ByteSize ≤ Text.patternByteLimit
  names : (normalizeNames r.specializations).length ≤ Refusal.parameterLimit
  arguments : ∀ employment experience, r.Names employment experience →
    (compose (r.criteria (some (r.knownIds db)) employment experience)).arguments.length ≤
      Refusal.parameterLimit

variable {r : SearchRequest} {db : Database} {employment : List Employment}
  {experience : List Experience}

theorem Fitting.short (h : r.Fitting db) (ids : Option (List Int)) :
    (r.criteria ids employment experience).Short := by
  intro t ht
  obtain ⟨q, hq, hblank, rfl⟩ := (textFilter_eq_some_iff _ t).1 ht
  exact h.query q hq hblank

theorem Fitting.arguments_none (h : r.Fitting db) (hnamed : r.Names employment experience) :
    (compose (r.criteria none employment experience)).arguments.length ≤
      Refusal.parameterLimit :=
  (length_arguments_category_le (r.criteria (some (r.knownIds db)) employment experience)).trans
    (h.arguments employment experience hnamed)

/-- A request that asks for specializations alone fits if they do. -/
theorem fitting_of_bare (hquery : r.query = none) (hemployment : r.employment = [])
    (hexperience : r.experience = [])
    (hnames : (normalizeNames r.specializations).length ≤ Refusal.parameterLimit)
    (harguments : (compose (r.criteria (some (r.knownIds db)) [] [])).arguments.length ≤
      Refusal.parameterLimit) : r.Fitting db := by
  refine ⟨?_, hnames, ?_⟩
  · intro q hq
    rw [hquery] at hq
    exact nomatch hq
  · intro employment experience hnamed
    have he := hnamed.employment
    have hx := hnamed.experience
    rw [hemployment, List.map_nil, List.map_eq_nil_iff] at he
    rw [hexperience, List.map_nil, List.map_eq_nil_iff] at hx
    rw [he, hx]
    exact harguments

end SearchRequest

namespace Call

variable {s : Call} {r : SearchRequest} {employment : List Employment}
  {experience : List Experience}

/-! ## Pages of requests -/

/-- The pages of a request are the windows of one list. -/
def PagesOf (s : Call) (r : SearchRequest) (all : List VacancySummary) : Prop :=
  ∀ limits limit offset, (s.searchFor limits { r with limit, offset }).1 =
    .ok ((all.drop offset).take (limits.normalize limit))

/-- The list is determined by its windows: one of them is wide enough for two such lists. -/
theorem PagesOf.unique {all all' : List VacancySummary} (h : s.PagesOf r all)
    (h' : s.PagesOf r all') : all = all' := by
  let size := all.length + all'.length + 1
  have hsize : SearchLimits.normalize { maxLimit := size } size = size := by
    simp [SearchLimits.normalize, size]
  have hsame := (h { maxLimit := size } size 0).symm.trans (h' { maxLimit := size } size 0)
  rw [hsize, List.drop_zero, List.drop_zero, List.take_of_length_le (by omega),
    List.take_of_length_le (by omega)] at hsame
  exact Except.ok.inj hsame

/-- A request that names no specialization finds the matches of its other criteria. -/
theorem pagesOf_unnamed_iff (h : r.validate = .ok (employment, experience))
    (hnames : normalizeNames r.specializations = []) (all : List VacancySummary) :
    s.PagesOf r all ↔ ∀ limits limit offset,
      (s.search limits { r.criteria none employment experience with limit, offset }).1 =
        .ok ((all.drop offset).take (limits.normalize limit)) := by
  have hsearch : ∀ limits limit offset, s.searchFor limits { r with limit, offset } =
      s.search limits { r.criteria none employment experience with limit, offset } :=
    fun limits limit offset => searchFor_of_unnamed (r := { r with limit, offset }) h hnames
  simp only [PagesOf, hsearch]

/-- A request that names specializations finds those of the matches that have one of the names. -/
theorem pagesOf_named (hs : s.Unhindered) (hfolds : s.connection.foldsCase = true)
    (hdb : s.connection.view.Conforms) (h : r.validate = .ok (employment, experience))
    (hnamed : r.Names employment experience) (hfitting : r.Fitting s.connection.view)
    (hnames : normalizeNames r.specializations ≠ []) {all : List VacancySummary}
    (hall : List.Forall₂ Joined.Shows
      ((r.criteria none employment experience).matched s.connection.view) all) :
    s.PagesOf r (all.filter fun m => decide (r.Asks m)) := by
  have hrefers : ∀ j : Joined, j.Of s.connection.view → ∀ m, j.Shows m →
      ((∃ id ∈ r.knownIds s.connection.view, j.vacancy.specializationId = some id) ↔
        r.Asks m) := by
    intro j hj m hm
    rw [SearchRequest.knownIds, hj.refers_iff hdb, SearchRequest.Asks, hm.specialization]
    exact ⟨fun h _ => h, fun h => h hnames⟩
  obtain ⟨x, hx, -⟩ := hdb (.dictionary .specialization)
  have hlength := ((firstsBy_sublist id [] (normalizeNames r.specializations)).length_le).trans
    hfitting.names
  obtain ⟨ids, hids⟩ := exists_findIdsByNames hs hx hlength
  have hreads := reads_findIdsByNames .specialization (normalizeNames r.specializations) s
  have hknown : ids = r.knownIds s.connection.view := eq_of_findIdsByNames_normal hids
  intro limits limit offset
  rcases searchFor_named_cases (r := { r with limit, offset }) limits h hnames s with
    ⟨e, he, -⟩ | ⟨hnone, heq⟩ | ⟨ids', hne, hids', heq⟩
  · rw [show (s.findIdsByNames .specialization _).1 = .error e from he] at hids
    exact nomatch hids
  · obtain rfl : ids = [] := Except.ok.inj (hids.symm.trans hnone)
    have hempty : all.filter (fun m => decide (r.Asks m)) = [] := by
      rw [List.filter_eq_nil_iff]
      intro m hm hasks
      obtain ⟨j, hj, hshows⟩ := (mem_iff_of_forall₂ hall m).1 hm
      have hof := ((mem_matched_iff hdb).1 hj).1
      obtain ⟨id, hid, -⟩ := (hrefers j hof m hshows).2 (of_decide_eq_true hasks)
      rw [← hknown] at hid
      exact nomatch hid
    rw [heq, hempty, List.drop_nil, List.take_nil]
  · obtain rfl : ids = ids' := Except.ok.inj (hids.symm.trans hids')
    obtain ⟨found, hfound, hpages⟩ := exists_pages
      (c := r.criteria (some ids) employment experience) (hreads.unhindered hs)
      ((Connection.foldsCase_of_settings hreads.settings).trans hfolds)
      (hreads.view ▸ hdb) (hfitting.short _) (hknown ▸ hfitting.arguments _ _ hnamed)
    rw [hreads.view, show r.criteria (some ids) employment experience =
      { r.criteria none employment experience with categoryIds := some ids } from rfl,
      matched_category hdb hne] at hfound
    have hasked := forall₂_filter hall (q := fun m => decide (r.Asks m))
      (p := fun j => decide (∃ id ∈ ids, j.vacancy.specializationId = some id)) (by
        intro j hj m hm
        rw [decide_eq_true_eq, decide_eq_true_eq, hknown]
        exact hrefers j ((mem_matched_iff hdb).1 hj).1 m hm)
    have hsame : found = all.filter fun m => decide (r.Asks m) :=
      Except.ok.inj ((summaries_of_forall₂ hfound).symm.trans (summaries_of_forall₂ hasked))
    rw [heq, ← hsame]
    exact hpages limits limit offset

/-! ## What is asked for is found -/

/-- A good request that names specializations, with nothing in its way, finds those of the matches
without them that it asks for. -/
theorem exists_asked (hs : s.Unhindered) (hfolds : s.connection.foldsCase = true)
    (hdb : s.connection.view.Conforms) (hgood : ¬ r.Faulty)
    (hfitting : r.Fitting s.connection.view) :
    ∃ all, s.PagesOf { r with specializations := [] } all ∧
      s.PagesOf r (all.filter fun m => decide (r.Asks m)) := by
  rcases r.validate_cases with ⟨hfaulty, -⟩ | ⟨-, employment, experience, hok, hnamed⟩
  · exact absurd hfaulty hgood
  obtain ⟨all, hall, hpages⟩ := exists_pages (c := r.criteria none employment experience) hs hfolds
    hdb (hfitting.short none) (hfitting.arguments_none hnamed)
  refine ⟨all, ?_, ?_⟩
  · exact (pagesOf_unnamed_iff (r := { r with specializations := [] }) hok rfl all).2 hpages
  · by_cases hnames : normalizeNames r.specializations = []
    · have hall' : all.filter (fun m => decide (r.Asks m)) = all := by
        rw [List.filter_eq_self]
        exact fun m _ => decide_eq_true fun hne => absurd hnames hne
      rw [hall']
      exact (pagesOf_unnamed_iff hok hnames all).2 hpages
    · exact pagesOf_named hs hfolds hdb hok hnamed hfitting hnames hall

/-- The small store has one vacancy, with the specialization "backend". -/
theorem exists_backend {all : List VacancySummary}
    (h : sample.PagesOf { specializations := [] } all) :
    ∃ m ∈ all, m.specialization = some "backend" := by
  let j : Joined := ⟨⟨1, 1, some 1, "Engineer", 1, "full_time", "no_matter", some 100, none, 0, 5⟩,
    "Acme", some "backend"⟩
  let r : SearchRequest := { specializations := [] }
  have hpages := (pagesOf_unnamed_iff (r := r) rfl rfl all).1 h
  have hall := forall₂_of_pages (c := r.criteria none [] []) hpages
  have hfits : (joined Database.sample).filter
      (fun j => decide ((r.criteria none [] []).Fits j)) = [j] := by
    decide +kernel
  rw [show sample.connection.view = Database.sample from rfl, Criteria.matched, hfits,
    List.mergeSort_singleton] at hall
  obtain ⟨m, -, hshows, -, rfl⟩ := List.forall₂_cons_left_iff.1 hall
  exact ⟨m, List.mem_cons_self, hshows.specialization⟩

/-- A good request, with nothing in its way, on conforming tables: what it finds is what it would
find without naming specializations, as far as it has one of the names in normal form. A match whose
specialization is the normal form of an entry is among that, if no other entry of the request
differs from it only in case. -/
theorem searchFor_finds_sole_spellings (r : SearchRequest) (s : Call) (hs : s.Unhindered)
    (hfolds : s.connection.foldsCase = true) (hdb : s.connection.view.Conforms) (hgood : ¬ r.Faulty)
    (hfitting : r.Fitting s.connection.view) :
    ∃ all found : List VacancySummary,
      s.PagesOf { r with specializations := [] } all ∧ s.PagesOf r found ∧
      (∀ m, m ∈ found ↔ m ∈ all ∧ r.Asks m) ∧
      ∀ entry ∈ r.specializations, ∀ name, normalizeName entry = some name →
        (∀ other ∈ r.specializations, ∀ n, normalizeName other = some n →
          Text.lowercase n = Text.lowercase name → n = name) →
        ∀ m ∈ all, m.specialization = some name → m ∈ found := by
  obtain ⟨all, hall, hfound⟩ := exists_asked hs hfolds hdb hgood hfitting
  have hmem : ∀ m, m ∈ all.filter (fun m => decide (r.Asks m)) ↔ m ∈ all ∧ r.Asks m := by
    intro m
    rw [List.mem_filter, decide_eq_true_eq]
  refine ⟨all, _, hall, hfound, hmem, ?_⟩
  intro entry hentry name hname hsole m hm hshown
  rw [hmem]
  refine ⟨hm, fun _ => ⟨name, ?_, hshown⟩⟩
  exact mem_normalizeNames_of_sole hentry hname hsole

/-- On the small store an entry that nobody knows does not keep another one from being found. -/
theorem searchFor_finds_sole_spellings_sample :
    ∃ found, sample.PagesOf { specializations := ["Astronomy", " backend "] } found ∧
      ∃ m ∈ found, m.specialization = some "backend" := by
  obtain ⟨all, found, hall, hfound, -, hsole⟩ := searchFor_finds_sole_spellings
    { specializations := ["Astronomy", " backend "] } sample sample_unhindered rfl
    Database.sample_conforms (SearchRequest.not_faulty_of_bare rfl rfl rfl)
    (SearchRequest.fitting_of_bare rfl rfl rfl (by decide +kernel) (by decide +kernel))
  obtain ⟨m, hm, hshown⟩ := exists_backend hall
  refine ⟨found, hfound, m, ?_, hshown⟩
  refine hsole " backend " (by decide) "backend" (by decide +kernel) ?_ m hm hshown
  decide +kernel

/-- Of two spellings only the first is asked for: with "Backend" before it, "backend" is lost. -/
theorem not_searchFor_finds_all_spellings :
    ¬ ∀ (r : SearchRequest) (s : Call), s.Unhindered → s.connection.foldsCase = true →
      s.connection.view.Conforms → ¬ r.Faulty → r.Fitting s.connection.view →
      ∃ all found : List VacancySummary,
        s.PagesOf { r with specializations := [] } all ∧ s.PagesOf r found ∧
        ∀ entry ∈ r.specializations, ∀ name, normalizeName entry = some name →
          ∀ m ∈ all, m.specialization = some name → m ∈ found := by
  intro h
  let r : SearchRequest := { specializations := ["Backend", "backend"] }
  have hgood : ¬ r.Faulty := SearchRequest.not_faulty_of_bare rfl rfl rfl
  have hfitting : r.Fitting Database.sample :=
    SearchRequest.fitting_of_bare rfl rfl rfl (by decide +kernel) (by decide +kernel)
  obtain ⟨all, found, hall, hfound, hcomplete⟩ :=
    h r sample sample_unhindered rfl Database.sample_conforms hgood hfitting
  obtain ⟨m, hm, hshown⟩ := exists_backend hall
  have hmem : m ∈ found := by
    refine hcomplete "backend" (by decide) "backend" ?_ m hm hshown
    decide +kernel
  obtain ⟨all', -, hasked⟩ :=
    exists_asked sample_unhindered rfl Database.sample_conforms hgood hfitting
  rw [hfound.unique hasked, List.mem_filter, decide_eq_true_eq] at hmem
  have hnames : normalizeNames r.specializations = ["Backend"] := by decide +kernel
  obtain ⟨name, hname, hshown'⟩ := hmem.2 (by rw [hnames]; exact List.cons_ne_nil _ _)
  rw [hnames, List.mem_singleton] at hname
  rw [hshown, hname] at hshown'
  exact absurd hshown' (by decide)

end Call

end JobBoard
