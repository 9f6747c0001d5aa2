import JobBoard.Proofs.Call.Finding
import JobBoard.Proofs.Call.Telling
import JobBoard.Proofs.Names

/-!
# What a request can bring about

A request is refused as bad exactly if its floor is negative or one of its texts names nothing
(`validate_cases`), and then nothing happens. Otherwise its specializations are looked up and its
criteria are searched for (`searchFor_named_cases`). The main theorem is `searchFor_never_widens`:
nothing is written, and what is returned is covered by the request.
-/

set_option autoImplicit false

namespace JobBoard

open Observe Search Store

/-! ## Good and bad requests -/

/-- A list of texts is parsed item by item, or one of its texts names nothing. -/
theorem parseEach_cases {α : Type} {parse : String → Except UnknownValue α} {text : α → String}
    (hparse : ∀ t a, parse t = .ok a ↔ text a = t) (list : List String) :
    ((∃ t ∈ list, ∀ a, text a ≠ Text.trim t) ∧ ∃ u, parseEach parse list = .error u) ∨
      ∃ as, parseEach parse list = .ok as ∧ as.map text = list.map Text.trim := by
  induction list with
  | nil => exact .inr ⟨[], rfl, rfl⟩
  | cons t rest ih =>
    rw [parseEach]
    cases ht : parse (Text.trim t) with
    | error u =>
      refine .inl ⟨⟨t, List.mem_cons_self, ?_⟩, u, rfl⟩
      intro a ha
      rw [(hparse _ a).2 ha] at ht
      exact nomatch ht
    | ok a =>
      rcases ih with ⟨⟨t', ht', hnone⟩, u, hu⟩ | ⟨as, has, hall⟩
      · refine .inl ⟨⟨t', List.mem_cons_of_mem t ht', hnone⟩, u, ?_⟩
        rw [hu]
      · refine .inr ⟨a :: as, ?_, ?_⟩
        · rw [has]
        · rw [List.map_cons, List.map_cons, hall, (hparse _ a).1 ht]

namespace SearchRequest

/-- The floor is negative, or a text is not one of the closed list it has to be of. -/
def Faulty (r : SearchRequest) : Prop :=
  (∃ floor, r.minSalary = some floor ∧ floor < 0) ∨
    (∃ t ∈ r.employment, ∀ e : Employment, e.text ≠ Text.trim t) ∨
      ∃ t ∈ r.experience, ∀ e : Experience, e.text ≠ Text.trim t

/-- A request that asks for texts and specializations alone is good. -/
theorem not_faulty_of_bare {r : SearchRequest} (hfloor : r.minSalary = none)
    (hemployment : r.employment = []) (hexperience : r.experience = []) : ¬ r.Faulty := by
  rintro (⟨floor, hsome, -⟩ | ⟨t, ht, -⟩ | ⟨t, ht, -⟩)
  · rw [hfloor] at hsome
    exact nomatch hsome
  · rw [hemployment] at ht
    exact nomatch ht
  · rw [hexperience] at ht
    exact nomatch ht

/-- Lists hold what the texts of a request name. -/
structure Names (r : SearchRequest) (employment : List Employment) (experience : List Experience) :
    Prop where
  employment : employment.map Employment.text = r.employment.map Text.trim
  experience : experience.map Experience.text = r.experience.map Text.trim

theorem not_exists_of_map_eq {α : Type} {text : α → String} {as : List α} {list : List String}
    (h : as.map text = list.map Text.trim) : ¬ ∃ t ∈ list, ∀ a, text a ≠ Text.trim t := by
  rintro ⟨t, ht, hnone⟩
  have hmem : Text.trim t ∈ as.map text := h ▸ List.mem_map_of_mem ht
  obtain ⟨a, -, ha⟩ := List.mem_map.1 hmem
  exact hnone a ha

theorem exists_text_of_map_eq {α : Type} {text : α → String} {as : List α} {list : List String}
    (h : as.map text = list.map Text.trim) {a : α} (ha : a ∈ as) :
    ∃ t ∈ list, text a = Text.trim t := by
  have hmem : text a ∈ list.map Text.trim := h ▸ List.mem_map_of_mem ha
  obtain ⟨t, ht, heq⟩ := List.mem_map.1 hmem
  exact ⟨t, ht, heq.symm⟩

theorem ne_nil_of_map_eq {α : Type} {text : α → String} {as : List α} {list : List String}
    (h : as.map text = list.map Text.trim) (hne : list ≠ []) : as ≠ [] := by
  rintro rfl
  exact hne (List.map_eq_nil_iff.1 h.symm)

/-- A request is bad, or its lists are what its texts name. -/
theorem validate_cases (r : SearchRequest) :
    (r.Faulty ∧ ∃ message, r.validate = .error (.badRequest message)) ∨
      (¬ r.Faulty ∧ ∃ employment experience, r.validate = .ok (employment, experience) ∧
        r.Names employment experience) := by
  rw [validate]
  cases hfloor : r.minSalary.filter (· < 0) with
  | some floor =>
    obtain ⟨hsome, hneg⟩ := Option.filter_eq_some_iff.1 hfloor
    exact .inl ⟨.inl ⟨floor, hsome, by simpa using hneg⟩, _, rfl⟩
  | none =>
    have hpositive : ¬ ∃ floor, r.minSalary = some floor ∧ floor < 0 := by
      rintro ⟨floor, hsome, hneg⟩
      rw [hsome] at hfloor
      simp [Option.filter, hneg] at hfloor
    rcases parseEach_cases Employment.parse_eq_ok_iff r.employment with
      ⟨hbad, u, hu⟩ | ⟨employment, hemployment, hnamed⟩
    · rw [hu]
      exact .inl ⟨.inr (.inl hbad), _, rfl⟩
    rw [hemployment]
    rcases parseEach_cases Experience.parse_eq_ok_iff r.experience with
      ⟨hbad, u, hu⟩ | ⟨experience, hexperience, hnamed'⟩
    · rw [hu]
      exact .inl ⟨.inr (.inr hbad), _, rfl⟩
    rw [hexperience]
    refine .inr ⟨?_, employment, experience, rfl, hnamed, hnamed'⟩
    rintro (h | h | h)
    · exact hpositive h
    · exact not_exists_of_map_eq hnamed h
    · exact not_exists_of_map_eq hnamed' h

/-- The criteria of a request, given the ids of its specializations and its parsed lists. -/
def criteria (r : SearchRequest) (ids : Option (List Int)) (employment : List Employment)
    (experience : List Experience) : Criteria where
  freeText := r.query
  categoryIds := ids
  minValue := r.minSalary
  employmentTypes := some employment
  experienceLevels := some experience
  limit := r.limit
  offset := r.offset

/-- A summary has what a request asks for, as far as it names specializations, forms of employment,
bands of experience and a floor. -/
structure Covers (r : SearchRequest) (m : VacancySummary) : Prop where
  specialization : (∃ entry ∈ r.specializations, Text.trim entry ≠ "") →
    ∃ name ∈ normalizeNames r.specializations, m.specialization = some name
  employment : r.employment ≠ [] → ∃ t ∈ r.employment, m.employment.text = Text.trim t
  experience : r.experience ≠ [] → ∃ t ∈ r.experience, m.experience.text = Text.trim t
  salary : ∀ floor, r.minSalary = some floor → ∃ n, m.salaryFrom = some n ∧ floor ≤ n

/-- What shows a match of the criteria is covered by the request, if its specializations are the ids
of the names that are known. -/
theorem covers_of_fits {r : SearchRequest} {employment : List Employment}
    {experience : List Experience} {ids : Option (List Int)} {db : Database} {j : Joined}
    {m : VacancySummary} (hnamed : r.Names employment experience)
    (hids : normalizeNames r.specializations ≠ [] → ∃ known, known ≠ [] ∧ ids = some known ∧
      known = (normalizeNames r.specializations).filterMap (db.idOf? .specialization))
    (hdb : db.Conforms) (hj : j.Of db) (hfits : (r.criteria ids employment experience).Fits j)
    (hm : j.Shows m) : r.Covers m := by
  refine ⟨?_, ?_, ?_, ?_⟩
  · rintro ⟨entry, hentry, hblank⟩
    -- an entry that is not blank leaves a name, so the criteria do restrict the specialization
    have hnames : normalizeNames r.specializations ≠ [] := by
      intro hnil
      exact hblank ((normalizeNames_eq_nil_iff _).1 hnil entry hentry)
    obtain ⟨known, hne, hsome, hknown⟩ := hids hnames
    have hrefers := hfits.category known hsome hne
    rw [hknown, hj.refers_iff hdb] at hrefers
    rw [hm.specialization]
    exact hrefers
  · intro hne
    have hlist := ne_nil_of_map_eq hnamed.employment hne
    obtain ⟨e, he, htext⟩ := hfits.employment employment rfl hlist
    rw [hm.employment, ← htext]
    exact exists_text_of_map_eq hnamed.employment he
  · intro hne
    have hlist := ne_nil_of_map_eq hnamed.experience hne
    obtain ⟨e, he, htext⟩ := hfits.experience experience rfl hlist
    rw [hm.experience, ← htext]
    exact exists_text_of_map_eq hnamed.experience he
  · intro floor hfloor
    rw [hm.salaryFrom]
    exact hfits.salary floor hfloor

end SearchRequest

namespace Call

variable {s : Call} {d : Dictionary} {r : SearchRequest} {limits : SearchLimits}
  {employment : List Employment} {experience : List Experience}

/-! ## Looking names up -/

/-- With nothing in its way the look-up of names answers. -/
theorem exists_findIdsByNames (hs : s.Unhindered) {x : Table Entry}
    (hx : s.connection.view.table (.dictionary d) = some x) {list : List String}
    (hlength : (firstsBy id [] list).length ≤ Refusal.parameterLimit) :
    ∃ ids, (s.findIdsByNames d list).1 = .ok ids := by
  cases list with
  | nil => exact ⟨[], rfl⟩
  | cons name rest =>
    have htold := connection_tell (.called .lookupRead) s
    have hready := (reads_tell (.called .lookupRead) s).unhindered hs
    -- a name is bound once, however often it is asked for
    let unique := firstsBy id [] (name :: rest)
    let found := (s.connection.view.rows (.dictionary d)).filter fun e => unique.contains e.name
    have hanswer :
        ((s.tell (.called .lookupRead)).ask (entriesOfNames d unique)).1 = .ok found := by
      apply answer_ask hready.live hready.readable hready.unlocked hlength
      rw [htold]
      exact run_ofEntries_of_table hx
    simp only [findIdsByNames, answer_observed]
    rcases hask : (s.tell (.called .lookupRead)).ask (entriesOfNames d unique) with ⟨outcome, s'⟩
    rw [hask] at hanswer
    obtain rfl : outcome = .ok found := hanswer
    exact ⟨_, rfl⟩

/-- Names in normal form are all different, so each is looked up in its place. -/
theorem eq_of_findIdsByNames_normal {list : List String} {ids : List Int}
    (h : (s.findIdsByNames d (normalizeNames list)).1 = .ok ids) :
    ids = (normalizeNames list).filterMap (s.connection.view.idOf? d) := by
  have hfirsts : firstsBy id [] (normalizeNames list) = normalizeNames list := by
    apply firstsBy_eq_self
    · rw [List.map_id]
      exact nodup_normalizeNames list
    · exact fun _ _ => List.not_mem_nil
  rw [eq_of_findIdsByNames h, hfirsts]

/-- The look-up of names tells of itself and of no search. -/
theorem notes_findIdsByNames (d : Dictionary) (list : List String) (s : Call) :
    ∃ told, (s.findIdsByNames d list).2.notes = s.notes ++ told ∧
      Note.event (.called .search) ∉ told := by
  by_cases hlist : list = []
  · subst hlist
    exact ⟨[], (List.append_nil _).symm, List.not_mem_nil⟩
  · obtain ⟨told, hnotes, hevents⟩ := mirrors_findIdsByNames d hlist s
    refine ⟨told, hnotes, fun hmem => ?_⟩
    have hcalled : Event.called .search ∈ events told := List.mem_filterMap.2 ⟨_, hmem, rfl⟩
    rw [hevents] at hcalled
    simp [report] at hcalled

/-! ## Answering requests -/

theorem searchFor_of_error {e : BoardError} (h : r.validate = .error e) :
    s.searchFor limits r = (.error e, s) := by
  rw [searchFor, h]

/-- A request that names no specialization is a search by its criteria. -/
theorem searchFor_of_unnamed (h : r.validate = .ok (employment, experience))
    (hnames : normalizeNames r.specializations = []) :
    s.searchFor limits r = s.search limits (r.criteria none employment experience) := by
  rw [searchFor, h, hnames]
  rfl

theorem requestedIds_of_ne_nil {list : List String} (hlist : list ≠ []) (s : Call) :
    s.requestedIds list = ((s.findIdsByNames .specialization list).1.map some,
      (s.findIdsByNames .specialization list).2) := by
  unfold requestedIds
  split
  · exact absurd rfl hlist
  · rcases s.findIdsByNames .specialization list with ⟨_ | ids, s'⟩ <;> rfl

/-- A request that names specializations looks them up first. If that fails, so does the request; if
none is known, nothing is searched for. -/
theorem searchFor_named_cases (limits : SearchLimits)
    (h : r.validate = .ok (employment, experience))
    (hnames : normalizeNames r.specializations ≠ []) (s : Call) :
    let looked := s.findIdsByNames .specialization (normalizeNames r.specializations)
    (∃ e, looked.1 = .error e ∧ s.searchFor limits r = (.error e, looked.2)) ∨
      (looked.1 = .ok [] ∧ s.searchFor limits r = (.ok [], looked.2)) ∨
      ∃ ids, ids ≠ [] ∧ looked.1 = .ok ids ∧
        s.searchFor limits r =
          looked.2.search limits (r.criteria (some ids) employment experience) := by
  intro looked
  rw [searchFor, h]
  simp only [requestedIds_of_ne_nil hnames]
  rcases hlooked : looked with ⟨e | _ | ⟨id, ids⟩, s'⟩
  · exact .inl ⟨e, rfl, by rw [show s.findIdsByNames _ _ = _ from hlooked]; rfl⟩
  · exact .inr (.inl ⟨rfl, by rw [show s.findIdsByNames _ _ = _ from hlooked]; rfl⟩)
  · refine .inr (.inr ⟨id :: ids, List.cons_ne_nil id ids, rfl, ?_⟩)
    rw [show s.findIdsByNames _ _ = _ from hlooked]
    rfl

theorem error_of_search {c : Criteria} {e : BoardError} (h : (s.search limits c).1 = .error e) :
    ∃ cause, e = .internal Activity.search.text (some cause) := by
  rw [search, answer_observed, runSearch] at h
  rcases hask : (s.tell (.called .search)).ask ((composeWithin limits c).rows
    (s.tell (.called .search)).connection.foldsCase) with ⟨cause | rows, s'⟩
  · simp only [hask, during, Except.error.injEq] at h
    exact ⟨cause, h.symm⟩
  · cases hsummaries : summaries rows with
    | error f =>
      simp only [hask, during, hsummaries, Except.error.injEq] at h
      exact ⟨.fault f, h.symm⟩
    | ok page =>
      simp only [hask, during, hsummaries] at h
      cases h

/-- Whatever keeps a good request from an answer is internal. -/
theorem error_of_searchFor (h : r.validate = .ok (employment, experience)) {e : BoardError}
    (he : (s.searchFor limits r).1 = .error e) : ∃ context cause, e = .internal context cause := by
  by_cases hnames : normalizeNames r.specializations = []
  · rw [searchFor_of_unnamed h hnames] at he
    obtain ⟨cause, rfl⟩ := error_of_search he
    exact ⟨_, _, rfl⟩
  · rcases searchFor_named_cases limits h hnames s with
      ⟨e', hlooked, heq⟩ | ⟨-, heq⟩ | ⟨ids, -, -, heq⟩
    · rw [heq] at he
      obtain rfl := Except.error.inj he
      obtain ⟨cause, rfl⟩ := error_of_findIdsByNames hlooked
      exact ⟨_, _, rfl⟩
    · rw [heq] at he
      exact nomatch he
    · rw [heq] at he
      obtain ⟨cause, rfl⟩ := error_of_search he
      exact ⟨_, _, rfl⟩

/-- Whatever is answered to a good request is covered by it. -/
theorem covers_of_searchFor (hdb : s.connection.view.Conforms)
    (h : r.validate = .ok (employment, experience)) (hnamed : r.Names employment experience)
    {page : List VacancySummary} (hpage : (s.searchFor limits r).1 = .ok page) {m : VacancySummary}
    (hm : m ∈ page) : r.Covers m := by
  by_cases hnames : normalizeNames r.specializations = []
  · rw [searchFor_of_unnamed h hnames] at hpage
    obtain ⟨j, hj, hfits, hshows⟩ := exists_of_search hdb hpage hm
    exact SearchRequest.covers_of_fits hnamed (fun hne => absurd hnames hne) hdb hj hfits hshows
  rcases searchFor_named_cases limits h hnames s with
    ⟨e, -, heq⟩ | ⟨-, heq⟩ | ⟨ids, hne, hids, heq⟩
  · rw [heq] at hpage
    exact nomatch hpage
  · rw [heq] at hpage
    obtain rfl := Except.ok.inj hpage
    exact nomatch hm
  · have hview := (reads_findIdsByNames .specialization (normalizeNames r.specializations) s).view
    rw [heq] at hpage
    obtain ⟨j, hj, hfits, hshows⟩ := exists_of_search (by rw [hview]; exact hdb) hpage hm
    rw [hview] at hj
    refine SearchRequest.covers_of_fits hnamed (fun _ => ⟨ids, hne, rfl, ?_⟩) hdb hj hfits hshows
    exact eq_of_findIdsByNames_normal hids

/-- If none of the names is known, nothing is searched for: only the look-up can fail. -/
theorem searchFor_of_unknown (limits : SearchLimits)
    (h : r.validate = .ok (employment, experience))
    (hnames : normalizeNames r.specializations ≠ [])
    (hunknown : ∀ name ∈ normalizeNames r.specializations,
      s.connection.view.idOf? .specialization name = none) :
    (s.searchFor limits r).2 =
        (s.findIdsByNames .specialization (normalizeNames r.specializations)).2 ∧
      ((s.searchFor limits r).1 = .ok [] ∨
        ∃ e, (s.findIdsByNames .specialization (normalizeNames r.specializations)).1 = .error e ∧
          (s.searchFor limits r).1 = .error e) := by
  rcases searchFor_named_cases limits h hnames s with
    ⟨e, he, heq⟩ | ⟨-, heq⟩ | ⟨ids, hne, hids, -⟩
  · rw [heq]
    exact ⟨rfl, .inr ⟨e, he, rfl⟩⟩
  · rw [heq]
    exact ⟨rfl, .inl rfl⟩
  · exfalso
    apply hne
    rw [eq_of_findIdsByNames_normal hids, List.filterMap_eq_nil_iff]
    exact hunknown

/-- Answering a request writes nothing. It is refused as bad exactly if it is faulty, before
anything is announced or looked at. On conforming tables all that is returned is covered by the
request. If it names specializations and none of them is known, no search is run; then the answer is
an empty page, unless the look-up of the names fails, which needs something in its way. -/
theorem searchFor_never_widens (limits : SearchLimits) (r : SearchRequest) (s : Call) :
    let answered := s.searchFor limits r
    let names := normalizeNames r.specializations
    let tables := s.connection.view
    answered.2.connection.committed = s.connection.committed ∧
      answered.2.connection.view = tables ∧
      ((∃ message, answered.1 = .error (.badRequest message)) ↔ r.Faulty) ∧
      (r.Faulty → answered.2 = s) ∧
      (tables.Conforms → ∀ page, answered.1 = .ok page → ∀ m ∈ page, r.Covers m) ∧
      (¬ r.Faulty → (∃ entry ∈ r.specializations, Text.trim entry ≠ "") →
        (∀ name ∈ names, ∀ e ∈ tables.rows (.dictionary .specialization), e.name ≠ name) →
        (∃ told, answered.2.notes = s.notes ++ told ∧ Note.event (.called .search) ∉ told) ∧
        (answered.1 = .ok [] ∨ ∃ cause, answered.1 =
          .error (.internal (Activity.findNames .specialization).text (some cause))) ∧
        (s.Unhindered → tables.Conforms → names.length ≤ Refusal.parameterLimit →
          answered.1 = .ok [])) := by
  intro answered names tables
  have hreads : Reads s answered.2 := reads_searchFor limits r s
  refine ⟨hreads.committed, hreads.view, ?_⟩
  rcases r.validate_cases with
    ⟨hfaulty, message, hbad⟩ | ⟨hgood, employment, experience, hok, hnamed⟩
  · have heq : answered = (.error (.badRequest message), s) := searchFor_of_error hbad
    rw [heq]
    refine ⟨⟨fun _ => hfaulty, fun _ => ⟨message, rfl⟩⟩, fun _ => rfl, ?_, ?_⟩
    · intro _ page hpage
      exact nomatch hpage
    · intro hgood
      exact absurd hfaulty hgood
  refine ⟨⟨?_, fun h => absurd h hgood⟩, fun h => absurd h hgood, ?_, ?_⟩
  · rintro ⟨message, hmessage⟩
    obtain ⟨context, cause, h⟩ := error_of_searchFor hok hmessage
    exact nomatch h
  · intro hdb page hpage m hm
    exact covers_of_searchFor hdb hok hnamed hpage hm
  · rintro - ⟨entry, hentry, hblank⟩ hunknown
    have hnames : names ≠ [] := by
      intro hnil
      exact hblank ((normalizeNames_eq_nil_iff _).1 hnil entry hentry)
    obtain ⟨hstate, hanswer⟩ := searchFor_of_unknown limits hok hnames
      fun name hname => (tables.idOf?_eq_none_iff _ name).2 (hunknown name hname)
    refine ⟨?_, ?_, ?_⟩
    · rw [show answered.2 = _ from hstate]
      exact notes_findIdsByNames .specialization names s
    · rcases hanswer with hempty | ⟨e, hlooked, he⟩
      · exact .inl hempty
      · obtain ⟨cause, rfl⟩ := error_of_findIdsByNames hlooked
        exact .inr ⟨cause, he⟩
    · intro hs hdb hlength
      obtain ⟨x, hx, -⟩ := hdb (.dictionary .specialization)
      have hfirsts := ((firstsBy_sublist id [] names).length_le).trans hlength
      obtain ⟨ids, hids⟩ := exists_findIdsByNames hs hx hfirsts
      rcases hanswer with hempty | ⟨e, hlooked, -⟩
      · exact hempty
      · rw [hids] at hlooked
        exact nomatch hlooked

/-- On the small store a name that nobody knows gives an empty page, one that is known gives nothing
that has another, and a negative floor is refused. -/
theorem searchFor_never_widens_sample :
    (sample.searchFor {} { specializations := ["Astronomy", " "] }).1 = .ok [] ∧
      (∀ page, (sample.searchFor {} { specializations := ["backend"] }).1 = .ok page →
        ∀ m ∈ page, m.specialization = some "backend") ∧
      (∃ message, (sample.searchFor {} { minSalary := some (-1) }).1 =
        .error (.badRequest message)) ∧
      (sample.searchFor {} { minSalary := some (-1) }).2 = sample := by
  have hfaulty : SearchRequest.Faulty { minSalary := some (-1) } := .inl ⟨-1, rfl, by decide⟩
  refine ⟨?_, ?_, ?_, ?_⟩
  · obtain ⟨-, -, -, -, -, hunknown⟩ :=
      searchFor_never_widens {} { specializations := ["Astronomy", " "] } sample
    have hgood := SearchRequest.not_faulty_of_bare (r := { specializations := ["Astronomy", " "] })
      rfl rfl rfl
    have hentry : ∃ entry ∈ ["Astronomy", " "], Text.trim entry ≠ "" :=
      ⟨"Astronomy", by decide, by decide +kernel⟩
    exact (hunknown hgood hentry (by decide +kernel)).2.2 sample_unhindered
      Database.sample_conforms (by decide +kernel)
  · intro page hpage m hm
    obtain ⟨-, -, -, -, hcovers, -⟩ :=
      searchFor_never_widens {} { specializations := ["backend"] } sample
    have hcovered := hcovers Database.sample_conforms page hpage m hm
    obtain ⟨name, hname, hshown⟩ := hcovered.specialization
      ⟨"backend", by decide, by decide +kernel⟩
    have hnames : normalizeNames ["backend"] = ["backend"] := by decide +kernel
    rw [hnames] at hname
    rw [hshown, List.mem_singleton.1 hname]
  · exact (searchFor_never_widens {} _ sample).2.2.1.2 hfaulty
  · exact (searchFor_never_widens {} _ sample).2.2.2.1 hfaulty

/-- With a token that has fired already, a name that nobody knows is not even looked up. -/
theorem not_searchFor_unknown_always_empty :
    ¬ ∀ (limits : SearchLimits) (r : SearchRequest) (s : Call), s.connection.view.Conforms →
      ¬ r.Faulty → (∃ entry ∈ r.specializations, Text.trim entry ≠ "") →
      (∀ name ∈ normalizeNames r.specializations,
        ∀ e ∈ s.connection.view.rows (.dictionary .specialization), e.name ≠ name) →
      (s.searchFor limits r).1 = .ok [] := by
  intro h
  have hempty := h {} { specializations := ["Astronomy"] }
    { sample with signal := { cancelled := true } } Database.sample_conforms
    (SearchRequest.not_faulty_of_bare rfl rfl rfl)
    ⟨"Astronomy", by decide, by decide +kernel⟩ (by decide +kernel)
  have hfailed : (Call.searchFor {} { specializations := ["Astronomy"] }
      { sample with signal := { cancelled := true } }).1 =
        .error (.internal (Activity.findNames .specialization).text
          (some (.abandoned .cancelled))) := by
    decide +kernel
  rw [hempty] at hfailed
  exact nomatch hfailed

end Call

end JobBoard
