import JobBoard.Proofs.Search.Filters
import JobBoard.Proofs.Store.Conformance
import Mathlib.Data.List.Forall2

/-!
# From tables to pages

The steps of a search around its filters, on conforming tables: the join has one row for each
vacancy (`mem_joined_iff`, `existsUnique_joined`), the order is strict because ids are unique
(`pairwise_newer`), every row can be read as a summary (`exists_shows`), and the window of the
summaries is the page (`summaries_window`). Whatever the tables hold, the rows are all read, or the
first that cannot be read gives its fault (`summaries_cases`).
-/

set_option autoImplicit false

namespace JobBoard

/-! ## Closed lists -/

/-- In a closed list of different spellings the member spelled like a text is found. -/
theorem find?_text_eq_some_iff {α : Type} {all : List α} {text : α → String}
    (hall : ∀ e, e ∈ all) (hnodup : (all.map text).Nodup) (s : String) (e : α) :
    all.find? (fun e => text e == s) = some e ↔ text e = s := by
  rw [Store.find?_eq_some_iff_of_nodup_map hnodup s e, and_iff_right (hall e)]

theorem find?_text_eq_none {α : Type} {all : List α} {text : α → String} {s : String}
    (h : ∀ e, text e ≠ s) : all.find? (fun e => text e == s) = none := by
  rw [List.find?_eq_none]
  intro e _
  simpa using h e

theorem Employment.parse_eq_ok_iff (s : String) (e : Employment) :
    Employment.parse s = .ok e ↔ e.text = s := by
  have hall : ∀ e : Employment, e ∈ all := by
    intro e
    cases e <;> decide
  rw [← find?_text_eq_some_iff hall (by decide +kernel) s e, parse]
  cases all.find? fun e => e.text == s <;> simp

theorem Employment.parse_of_unknown {s : String} (h : ∀ e : Employment, e.text ≠ s) :
    Employment.parse s = .error ⟨"employment", s⟩ := by
  rw [parse, find?_text_eq_none h]

theorem Experience.parse_eq_ok_iff (s : String) (e : Experience) :
    Experience.parse s = .ok e ↔ e.text = s := by
  have hall : ∀ e : Experience, e ∈ all := by
    intro e
    cases e <;> decide
  rw [← find?_text_eq_some_iff hall (by decide +kernel) s e, parse]
  cases all.find? fun e => e.text == s <;> simp

theorem Experience.parse_of_unknown {s : String} (h : ∀ e : Experience, e.text ≠ s) :
    Experience.parse s = .error ⟨"experience", s⟩ := by
  rw [parse, find?_text_eq_none h]

namespace Search

open Store

/-! ## The join -/

/-- A row of the join: a vacancy of the tables with the name of its employer and, if it has one, of
its specialization. -/
structure Joined.Of (db : Database) (j : Joined) : Prop where
  vacancy : j.vacancy ∈ db.rows .vacancy
  company : ∃ e ∈ db.rows .employer, e.id = j.vacancy.employerId ∧ e.companyName = j.company
  specialization : (j.vacancy.specializationId = none ∧ j.specialization = none) ∨
    ∃ l ∈ db.rows (.dictionary .specialization),
      j.vacancy.specializationId = some l.id ∧ j.specialization = some l.name

/-- All rows of the join. -/
def joined (db : Database) : List Joined :=
  joinRows (db.rows .vacancy) (db.rows .employer) (db.rows (.dictionary .specialization))

variable {db : Database}

theorem mem_joined_iff_of_linked (h : db.Linked) (j : Joined) : j ∈ joined db ↔ j.Of db := by
  unfold joined joinRows
  rw [List.mem_filterMap]
  constructor
  · rintro ⟨v, hv, hj⟩
    obtain ⟨e, he, rfl⟩ := Option.map_eq_some_iff.1 hj
    have hid : e.id = v.employerId := by simpa using List.find?_some he
    refine ⟨hv, ⟨e, List.mem_of_find?_eq_some he, hid, rfl⟩, ?_⟩
    cases hspecialization : v.specializationId with
    | none => exact .inl ⟨rfl, rfl⟩
    | some id =>
      obtain ⟨l, hl, rfl⟩ := h.exists_specialization hv hspecialization
      refine .inr ⟨l, hl, rfl, ?_⟩
      show ((db.rows (.dictionary .specialization)).find? (·.id == l.id)).map Entry.name = _
      rw [find?_of_nodup_map (h.nodup_entryIds .specialization) hl]
      rfl
  · rintro ⟨hv, ⟨e, he, hid, hcompany⟩, hspecialization⟩
    refine ⟨j.vacancy, hv, ?_⟩
    rw [← hid, find?_of_nodup_map h.nodup_employerIds he, Option.map_some]
    rcases j with ⟨v, company, specialization⟩
    have hname : (v.specializationId.bind fun id =>
        ((db.rows (.dictionary .specialization)).find? (·.id == id)).map Entry.name) =
          specialization := by
      rcases hspecialization with ⟨hnone, hname⟩ | ⟨l, hl, hsome, hname⟩
      · rw [show v.specializationId = none from hnone]
        exact hname.symm
      · rw [show v.specializationId = some l.id from hsome, Option.bind_some]
        rw [find?_of_nodup_map (h.nodup_entryIds .specialization) hl]
        exact hname.symm
    rw [hname, show e.companyName = company from hcompany]

theorem mem_joined_iff (h : db.Conforms) (j : Joined) : j ∈ joined db ↔ j.Of db :=
  mem_joined_iff_of_linked h.linked j

/-- The join has no more than one row for a vacancy. -/
theorem map_vacancy_joinRows_sublist (vs : List Vacancy) (es : List Employer) (ls : List Entry) :
    ((joinRows vs es ls).map Joined.vacancy).Sublist vs := by
  unfold joinRows
  induction vs with
  | nil => exact List.Sublist.slnil
  | cons v rest ih =>
    rw [List.filterMap_cons]
    cases es.find? fun e => e.id == v.employerId with
    | none => exact ih.cons v
    | some e => exact ih.cons_cons v

theorem nodup_ids_joined_of_linked (h : db.Linked) :
    ((joined db).map fun j => j.vacancy.id).Nodup := by
  have hsub := (map_vacancy_joinRows_sublist (db.rows .vacancy) (db.rows .employer)
    (db.rows (.dictionary .specialization))).map Vacancy.id
  rw [List.map_map] at hsub
  exact h.nodup_vacancyIds.sublist hsub

theorem nodup_ids_joined (h : db.Conforms) : ((joined db).map fun j => j.vacancy.id).Nodup :=
  nodup_ids_joined_of_linked h.linked

/-- Every vacancy has exactly one row in the join. -/
theorem existsUnique_joined (h : db.Conforms) {v : Vacancy} (hv : v ∈ db.rows .vacancy) :
    ∃! j : Joined, j.Of db ∧ j.vacancy = v := by
  obtain ⟨e, he, hid⟩ := h.linked.exists_employer hv
  have hexists : ∃ j : Joined, j.Of db ∧ j.vacancy = v := by
    cases hspecialization : v.specializationId with
    | none =>
      exact ⟨⟨v, e.companyName, none⟩, ⟨hv, ⟨e, he, hid, rfl⟩, .inl ⟨hspecialization, rfl⟩⟩, rfl⟩
    | some id =>
      obtain ⟨l, hl, rfl⟩ := h.linked.exists_specialization hv hspecialization
      exact ⟨⟨v, e.companyName, some l.name⟩,
        ⟨hv, ⟨e, he, hid, rfl⟩, .inr ⟨l, hl, hspecialization, rfl⟩⟩, rfl⟩
  obtain ⟨j, hj, rfl⟩ := hexists
  refine ⟨j, ⟨hj, rfl⟩, ?_⟩
  rintro j' ⟨hj', hsame⟩
  exact List.inj_on_of_nodup_map (nodup_ids_joined h) ((mem_joined_iff h j').2 hj')
    ((mem_joined_iff h j).2 hj) (congrArg Vacancy.id hsame)

/-! ## The order -/

/-- Newer, or of the same time and created later. -/
def Newer (a b : Joined) : Prop :=
  b.vacancy.updatedAt < a.vacancy.updatedAt ∨
    a.vacancy.updatedAt = b.vacancy.updatedAt ∧ b.vacancy.id < a.vacancy.id

theorem newerFirst_iff (a b : Joined) :
    newerFirst a b = true ↔ b.vacancy.updatedAt < a.vacancy.updatedAt ∨
      a.vacancy.updatedAt = b.vacancy.updatedAt ∧ b.vacancy.id ≤ a.vacancy.id := by
  unfold newerFirst
  simp

/-- Sorted rows with different ids are in strict order. -/
theorem pairwise_newer {rows : List Joined} (h : (rows.map fun j => j.vacancy.id).Nodup) :
    (rows.mergeSort newerFirst).Pairwise Newer := by
  refine Store.pairwise_mergeSort_of_nodup_map ?_ ?_ ?_ h
  · intro a b c hab hbc
    rw [newerFirst_iff] at hab hbc ⊢
    omega
  · intro a b
    rw [Bool.or_eq_true, newerFirst_iff, newerFirst_iff]
    omega
  · intro a b hle hne
    rw [newerFirst_iff] at hle
    unfold Newer
    omega

/-! ## Summaries -/

/-- A summary shows a row. -/
structure Joined.Shows (j : Joined) (m : VacancySummary) : Prop where
  id : m.id = j.vacancy.id
  title : m.title = j.vacancy.title
  employerId : m.employerId = j.vacancy.employerId
  company : m.companyName = j.company
  specialization : m.specialization = j.specialization
  employment : m.employment.text = j.vacancy.employment
  experience : m.experience.text = j.vacancy.experience
  salaryFrom : m.salaryFrom = j.vacancy.salaryFrom
  salaryTo : m.salaryTo = j.vacancy.salaryTo
  createdAt : m.createdAt = j.vacancy.createdAt
  updatedAt : m.updatedAt = j.vacancy.updatedAt

theorem Joined.Shows.summary {j : Joined} {m : VacancySummary} (h : j.Shows m) :
    j.summary = .ok m := by
  unfold Joined.summary
  rw [(Employment.parse_eq_ok_iff _ m.employment).2 h.employment]
  rw [(Experience.parse_eq_ok_iff _ m.experience).2 h.experience]
  show Except.ok _ = Except.ok m
  rw [← h.id, ← h.title, ← h.employerId, ← h.company, ← h.specialization, ← h.salaryFrom,
    ← h.salaryTo, ← h.createdAt, ← h.updatedAt]

/-- The texts of a row are of their closed lists. -/
structure Joined.Readable (j : Joined) : Prop where
  employment : ∃ e : Employment, e.text = j.vacancy.employment
  experience : ∃ e : Experience, e.text = j.vacancy.experience

theorem Joined.Shows.readable {j : Joined} {m : VacancySummary} (h : j.Shows m) : j.Readable :=
  ⟨⟨m.employment, h.employment⟩, ⟨m.experience, h.experience⟩⟩

/-- What can be read can be shown. -/
theorem Joined.Readable.exists_shows {j : Joined} (h : j.Readable) : ∃ m, j.Shows m := by
  obtain ⟨employment, hemployment⟩ := h.employment
  obtain ⟨experience, hexperience⟩ := h.experience
  exact ⟨{
    id := j.vacancy.id
    title := j.vacancy.title
    employerId := j.vacancy.employerId
    companyName := j.company
    specialization := j.specialization
    employment
    experience
    salaryFrom := j.vacancy.salaryFrom
    salaryTo := j.vacancy.salaryTo
    createdAt := j.vacancy.createdAt
    updatedAt := j.vacancy.updatedAt }, rfl, rfl, rfl, rfl, rfl, hemployment, hexperience, rfl, rfl,
    rfl, rfl⟩

/-- Every row of conforming tables can be shown. -/
theorem exists_shows (h : db.Conforms) {j : Joined} (hj : j.Of db) : ∃ m, j.Shows m :=
  Joined.Readable.exists_shows ⟨h.exists_employment hj.vacancy, h.exists_experience hj.vacancy⟩

/-- The fault of a row that cannot be read: its employment is looked at before its experience. -/
inductive Joined.Garbled (j : Joined) : StoreFault → Prop where
  | employment (unknown : ∀ e : Employment, e.text ≠ j.vacancy.employment) :
    j.Garbled (.unreadable 5 ⟨"employment", j.vacancy.employment⟩)
  | experience (known : ∃ e : Employment, e.text = j.vacancy.employment)
      (unknown : ∀ e : Experience, e.text ≠ j.vacancy.experience) :
    j.Garbled (.unreadable 6 ⟨"experience", j.vacancy.experience⟩)

theorem Joined.Garbled.not_readable {j : Joined} {f : StoreFault} (h : j.Garbled f) :
    ¬ j.Readable := by
  rintro ⟨⟨e, he⟩, ⟨e', he'⟩⟩
  cases h with
  | employment unknown => exact unknown e he
  | experience _ unknown => exact unknown e' he'

/-- A row that cannot be read is no interruption. -/
theorem Joined.Garbled.not_isInterrupt {j : Joined} {f : StoreFault} (h : j.Garbled f) :
    f.isInterrupt = false := by
  cases h with
  | employment => rfl
  | experience => rfl

theorem Joined.summary_cases (j : Joined) :
    (∃ m, j.summary = .ok m ∧ j.Shows m) ∨ ∃ f, j.summary = .error f ∧ j.Garbled f := by
  by_cases hemployment : ∃ e : Employment, e.text = j.vacancy.employment
  · by_cases hexperience : ∃ e : Experience, e.text = j.vacancy.experience
    · obtain ⟨m, hm⟩ := Joined.Readable.exists_shows ⟨hemployment, hexperience⟩
      exact .inl ⟨m, hm.summary, hm⟩
    · refine .inr ⟨_, ?_, .experience hemployment (not_exists.1 hexperience)⟩
      obtain ⟨e, he⟩ := hemployment
      rw [Joined.summary, (Employment.parse_eq_ok_iff _ e).2 he,
        Experience.parse_of_unknown (not_exists.1 hexperience)]
  · refine .inr ⟨_, ?_, .employment (not_exists.1 hemployment)⟩
    rw [Joined.summary, Employment.parse_of_unknown (not_exists.1 hemployment)]

theorem exists_forall₂_shows {rows : List Joined} (h : ∀ j ∈ rows, ∃ m, j.Shows m) :
    ∃ ms, List.Forall₂ Joined.Shows rows ms := by
  induction rows with
  | nil => exact ⟨[], .nil⟩
  | cons j rest ih =>
    obtain ⟨m, hm⟩ := h j List.mem_cons_self
    obtain ⟨ms, hms⟩ := ih fun j' hj' => h j' (List.mem_cons_of_mem j hj')
    exact ⟨m :: ms, .cons hm hms⟩

theorem readable_of_forall₂ {rows : List Joined} {ms : List VacancySummary}
    (h : List.Forall₂ Joined.Shows rows ms) : ∀ j ∈ rows, j.Readable := by
  induction h with
  | nil => exact List.forall_mem_nil _
  | cons hm _ ih => exact List.forall_mem_cons.2 ⟨hm.readable, ih⟩

theorem summaries_of_forall₂ {rows : List Joined} {ms : List VacancySummary}
    (h : List.Forall₂ Joined.Shows rows ms) : summaries rows = .ok ms := by
  induction h with
  | nil => rfl
  | cons hm _ ih =>
    unfold summaries
    rw [hm.summary, ih]

/-- All rows are shown, or the first that cannot be read gives its fault. -/
theorem summaries_cases (rows : List Joined) :
    (∃ ms, summaries rows = .ok ms ∧ List.Forall₂ Joined.Shows rows ms) ∨
      ∃ front j back f, rows = front ++ j :: back ∧ (∀ i ∈ front, i.Readable) ∧ j.Garbled f ∧
        summaries rows = .error f := by
  induction rows with
  | nil => exact .inl ⟨[], rfl, .nil⟩
  | cons j rest ih =>
    rcases j.summary_cases with ⟨m, hm, hshows⟩ | ⟨f, hf, hgarbled⟩
    · rcases ih with ⟨ms, hms, hrest⟩ | ⟨front, i, back, f, rfl, hfront, hgarbled, hf⟩
      · refine .inl ⟨m :: ms, ?_, .cons hshows hrest⟩
        rw [summaries, hm, hms]
      · refine .inr ⟨j :: front, i, back, f, rfl, ?_, hgarbled, ?_⟩
        · exact List.forall_mem_cons.2 ⟨hshows.readable, hfront⟩
        · rw [summaries, hm, hf]
    · refine .inr ⟨[], j, rest, f, rfl, List.forall_mem_nil _, hgarbled, ?_⟩
      rw [summaries, hf]

theorem forall₂_of_summaries {rows : List Joined} {ms : List VacancySummary}
    (h : summaries rows = .ok ms) : List.Forall₂ Joined.Shows rows ms := by
  rcases summaries_cases rows with ⟨ms', hms, hall⟩ | ⟨_, _, _, f, -, -, -, hf⟩
  · obtain rfl := Except.ok.inj (hms.symm.trans h)
    exact hall
  · rw [hf] at h
    cases h

theorem Joined.Shows.unique {j : Joined} {m m' : VacancySummary} (h : j.Shows m)
    (h' : j.Shows m') : m = m' :=
  Except.ok.inj (h.summary.symm.trans h'.summary)

/-- What is shown comes from a row, and every row is shown. -/
theorem mem_iff_of_forall₂ {rows : List Joined} {ms : List VacancySummary}
    (h : List.Forall₂ Joined.Shows rows ms) (m : VacancySummary) :
    m ∈ ms ↔ ∃ j ∈ rows, j.Shows m := by
  induction h with
  | nil => simp
  | @cons j m' rest ms' hm _ ih =>
    rw [List.mem_cons, ih]
    constructor
    · rintro (rfl | ⟨j', hj', hshows⟩)
      · exact ⟨j, List.mem_cons_self, hm⟩
      · exact ⟨j', List.mem_cons_of_mem j hj', hshows⟩
    · rintro ⟨j', hj', hshows⟩
      rcases List.mem_cons.1 hj' with rfl | hj'
      · exact .inl (hshows.unique hm)
      · exact .inr ⟨j', hj', hshows⟩

/-- What is shown of some of the rows is some of what is shown. -/
theorem forall₂_filter {rows : List Joined} {ms : List VacancySummary}
    (h : List.Forall₂ Joined.Shows rows ms) {p : Joined → Bool} {q : VacancySummary → Bool}
    (hpq : ∀ j ∈ rows, ∀ m, j.Shows m → (p j = true ↔ q m = true)) :
    List.Forall₂ Joined.Shows (rows.filter p) (ms.filter q) := by
  have hmem := (List.forall₂_and_left rows ms).2 ⟨fun j (hj : j ∈ rows) => hj, h⟩
  have hfiltered := List.rel_filter (fun j m hjm => hpq j hjm.1 m hjm.2) hmem
  exact hfiltered.imp fun _ _ hjm => hjm.2

theorem map_id_of_forall₂ {rows : List Joined} {ms : List VacancySummary}
    (h : List.Forall₂ Joined.Shows rows ms) :
    ms.map VacancySummary.id = rows.map fun j => j.vacancy.id := by
  induction h with
  | nil => rfl
  | cons hm _ ih => rw [List.map_cons, List.map_cons, ih, hm.id]

/-- No vacancy is shown twice, in whatever order the rows are shown. -/
theorem nodup_ids_of_forall₂ {rows : List Joined} {ms : List VacancySummary}
    (h : List.Forall₂ Joined.Shows (rows.mergeSort newerFirst) ms)
    (hrows : (rows.map fun j => j.vacancy.id).Nodup) : (ms.map VacancySummary.id).Nodup := by
  rw [map_id_of_forall₂ h]
  exact ((List.mergeSort_perm rows newerFirst).map _).nodup_iff.2 hrows

/-- What is shown is in the order of the rows. -/
theorem pairwise_of_forall₂ {rows : List Joined} {ms : List VacancySummary}
    (h : List.Forall₂ Joined.Shows rows ms) (hrows : rows.Pairwise Newer) :
    ms.Pairwise fun a b =>
      b.updatedAt < a.updatedAt ∨ a.updatedAt = b.updatedAt ∧ b.id < a.id := by
  induction h with
  | nil => exact List.Pairwise.nil
  | @cons j m rest ms' hm hrest ih =>
    rw [List.pairwise_cons] at hrows ⊢
    refine ⟨fun m' hm' => ?_, ih hrows.2⟩
    obtain ⟨j', hj', hshows⟩ := (mem_iff_of_forall₂ hrest m').1 hm'
    rw [hm.updatedAt, hm.id, hshows.updatedAt, hshows.id]
    exact hrows.1 j' hj'

/-! ## The window -/

theorem window_compose (c : Criteria) (rows : List Joined) :
    window (compose c) rows = ((rows.mergeSort newerFirst).drop c.offset).take c.limit := by
  have hlast : ∀ i, i < 2 → argument? (compose c).arguments
      ((c.filters.flatMap Filter.arguments).length + 1 + i) =
        argument? [.integer c.limit, .integer c.offset] (1 + i) := by
    intro i hi
    have hslot := argument?_append (c.filters.flatMap Filter.arguments)
      [.integer c.limit, .integer c.offset] [] hi
    rw [List.append_nil] at hslot
    exact hslot
  have hlimit := hlast 0 (by omega)
  have hoffset := hlast 1 (by omega)
  unfold window windowNumber
  rw [show (compose c).statement.limitSlot =
      (c.filters.flatMap Filter.arguments).length + 1 + 0 from rfl, hlimit]
  rw [show (compose c).statement.offsetSlot =
      (c.filters.flatMap Filter.arguments).length + 1 + 1 from rfl, hoffset]
  rfl

/-- The page is the window of all that is shown. -/
theorem summaries_window (c : Criteria) {rows : List Joined} {ms : List VacancySummary}
    (h : List.Forall₂ Joined.Shows (rows.mergeSort newerFirst) ms) :
    summaries (window (compose c) rows) = .ok ((ms.drop c.offset).take c.limit) := by
  rw [window_compose]
  exact summaries_of_forall₂ (List.forall₂_take _ (List.forall₂_drop _ h))

end Search

end JobBoard
