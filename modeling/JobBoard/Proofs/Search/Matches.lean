import JobBoard.Proofs.Search.Pages
import JobBoard.Proofs.Store.Tables
import Mathlib.Data.List.Flatten

/-!
# The matches of criteria

The matches are the rows of the join that fit the criteria, newest first, whatever the window is
(`Criteria.matched`). Whenever the statement of a search answers, it answers their window
(`eq_of_run_rows`); where the tables are there it always answers, unless its pattern is too long
(`run_rows_of_short`). To ask for specializations is to filter the matches (`matched_category`).
-/

set_option autoImplicit false

namespace JobBoard.Search

open Store

variable {c : Criteria} {j : Joined} {db : Database}

instance (c : Criteria) (j : Joined) : Decidable (c.Fits j) :=
  decidable_of_iff _ (forall_truth_iff_fits c j)

/-- All rows that fit the criteria, newest first. -/
def Criteria.matched (c : Criteria) (db : Database) : List Joined :=
  ((joined db).filter fun j => decide (c.Fits j)).mergeSort newerFirst

theorem mem_matched_iff_of_linked (h : db.Linked) :
    j ∈ c.matched db ↔ j.Of db ∧ c.Fits j := by
  rw [Criteria.matched, List.mem_mergeSort, List.mem_filter, mem_joined_iff_of_linked h,
    decide_eq_true_eq]

theorem mem_matched_iff (h : db.Conforms) : j ∈ c.matched db ↔ j.Of db ∧ c.Fits j :=
  mem_matched_iff_of_linked h.linked

/-- The matches are in strict order. -/
theorem pairwise_matched (h : db.Linked) (c : Criteria) : (c.matched db).Pairwise Newer :=
  pairwise_newer ((nodup_ids_joined_of_linked h).sublist (List.filter_sublist.map _))

/-- The matches are the same for every window. -/
theorem matched_window (c : Criteria) (limit offset : Nat) (db : Database) :
    { c with limit, offset }.matched db = c.matched db := by
  have hfits : ∀ j, { c with limit, offset }.Fits j ↔ c.Fits j := by
    intro j
    constructor
    · exact fun h => ⟨h.text, h.category, h.salary, h.employment, h.experience⟩
    · exact fun h => ⟨h.text, h.category, h.salary, h.employment, h.experience⟩
  simp only [Criteria.matched, hfits]

/-! ## Running the statement -/

theorem length_arguments (c : Criteria) :
    (compose c).arguments.length = (c.filters.flatMap Filter.arguments).length + 2 := by
  rw [compose, List.length_append]
  rfl

/-- The window of the rows that the statement keeps. -/
theorem window_keeps (c : Criteria) (db : Database) :
    window (compose c) ((joined db).filter (compose c).keeps) =
      ((c.matched db).drop c.offset).take c.limit := by
  have hsame : (joined db).filter (compose c).keeps =
      (joined db).filter fun j => decide (c.Fits j) := by
    apply List.filter_congr
    intro j _
    rw [Bool.eq_iff_iff, keeps_iff_fits, decide_eq_true_eq]
  rw [hsame, window_compose]
  rfl

theorem source_of_tables (h : ∀ t, ∃ x, db.table t = some x) (q : Composed) :
    q.source true db = .ok (joined db) := by
  obtain ⟨vacancies, hvacancies⟩ := h .vacancy
  obtain ⟨employers, hemployers⟩ := h .employer
  obtain ⟨entries, hentries⟩ := h (.dictionary .specialization)
  have hjoined : joined db = joinRows vacancies.rows employers.rows entries.rows := by
    rw [joined, Database.rows_of_table hvacancies, Database.rows_of_table hemployers,
      Database.rows_of_table hentries]
  rw [Composed.source, (db.occupant_eq_own_iff _ vacancies).2 hvacancies,
    (db.occupant_eq_own_iff _ employers).2 hemployers,
    (db.occupant_eq_own_iff _ entries).2 hentries, hjoined]
  simp

/-- A statement that can be compiled runs on the join of the tables. -/
theorem eq_of_source {q : Composed} {foldsCase : Bool} {rows : List Joined}
    (h : q.source foldsCase db = .ok rows) : rows = joined db := by
  unfold Composed.source at h
  split at h
  -- the first six cases are those where a table is missing or is none of the board's
  · simp at h
  · simp at h
  · simp at h
  · simp at h
  · simp at h
  · simp at h
  · rename_i vacancies employers entries hvacancies hemployers hentries
    split at h
    · simp at h
    · obtain rfl := Except.ok.inj h
      rw [joined, Database.rows_of_table ((db.occupant_eq_own_iff _ _).1 hvacancies),
        Database.rows_of_table ((db.occupant_eq_own_iff _ _).1 hemployers),
        Database.rows_of_table ((db.occupant_eq_own_iff _ _).1 hentries)]

/-- Where the tables are there, the statement answers the window of the matches. -/
theorem run_rows_of_short (hshort : c.Short) (htables : ∀ t, ∃ x, db.table t = some x) :
    ((compose c).rows true).run db = .ok (.ok (((c.matched db).drop c.offset).take c.limit)) := by
  have hselect : selectRows (compose c) (joined db) = .ok ((joined db).filter (compose c).keeps) :=
    selectRows_eq_filter _ _ fun j _ => satisfies_of_short hshort j
  show ((compose c).source true db).map (fun rows => (selectRows (compose c) rows).map _) = _
  rw [source_of_tables htables, Except.map, hselect, Except.map, window_keeps]

/-- Whatever the tables are, an answer of the statement is the window of the matches. -/
theorem eq_of_run_rows {foldsCase : Bool} {rows : List Joined}
    (h : ((compose c).rows foldsCase).run db = .ok (.ok rows)) :
    rows = ((c.matched db).drop c.offset).take c.limit := by
  replace h : ((compose c).source foldsCase db).map
      (fun rows => (selectRows (compose c) rows).map (window (compose c))) = .ok (.ok rows) := h
  cases hsource : (compose c).source foldsCase db with
  | error cause => simp [hsource, Except.map] at h
  | ok source =>
    obtain rfl := eq_of_source hsource
    cases hselect : selectRows (compose c) (joined db) with
    | error cause => simp [hsource, hselect, Except.map] at h
    | ok kept =>
      simp only [hsource, hselect, Except.map, Except.ok.injEq] at h
      rw [← h, eq_filter_of_selectRows hselect, window_keeps]

/-! ## Asking for specializations -/

/-- To ask for no specializations binds no more arguments. -/
theorem length_arguments_category_le (c : Criteria) :
    (compose { c with categoryIds := none }).arguments.length ≤ (compose c).arguments.length := by
  have hfilters : ({ c with categoryIds := none } : Criteria).filters.Sublist c.filters := by
    unfold Criteria.filters
    refine List.Sublist.append ?_ (List.Sublist.refl _)
    refine List.Sublist.append ?_ (List.Sublist.refl _)
    refine List.Sublist.append ?_ (List.Sublist.refl _)
    exact List.Sublist.append (List.Sublist.refl _) (List.nil_sublist _)
  rw [length_arguments, length_arguments]
  exact Nat.add_le_add_right (hfilters.flatMap Filter.arguments).length_le 2

/-- Sorting filtered rows is filtering sorted rows: the order is strict where ids differ. -/
theorem mergeSort_filter {rows : List Joined} (h : (rows.map fun j => j.vacancy.id).Nodup)
    (p : Joined → Bool) :
    (rows.filter p).mergeSort newerFirst = (rows.mergeSort newerFirst).filter p := by
  have hfiltered : ((rows.filter p).map fun j => j.vacancy.id).Nodup :=
    h.sublist (List.filter_sublist.map _)
  -- both sides are the same rows in an order that leaves no choice
  have hperm : ((rows.filter p).mergeSort newerFirst).Perm
      ((rows.mergeSort newerFirst).filter p) :=
    (List.mergeSort_perm _ newerFirst).trans ((List.mergeSort_perm rows newerFirst).filter p).symm
  refine List.Perm.eq_of_pairwise ?_ (pairwise_newer hfiltered) ((pairwise_newer h).filter p) hperm
  intro a b _ _ hab hba
  unfold Newer at hab hba
  omega

theorem fits_category_iff {ids : List Int} (hids : ids ≠ []) (c : Criteria) (j : Joined) :
    { c with categoryIds := some ids }.Fits j ↔
      { c with categoryIds := none }.Fits j ∧ ∃ id ∈ ids, j.vacancy.specializationId = some id := by
  constructor
  · intro h
    exact ⟨⟨h.text, nofun, h.salary, h.employment, h.experience⟩, h.category ids rfl hids⟩
  · rintro ⟨h, hid⟩
    refine ⟨h.text, ?_, h.salary, h.employment, h.experience⟩
    intro ids' hids' _
    obtain rfl := Option.some.inj hids'
    exact hid

/-- The matches with one of some specializations are those among all matches. -/
theorem matched_category (h : db.Conforms) {ids : List Int} (hids : ids ≠ []) (c : Criteria) :
    { c with categoryIds := some ids }.matched db =
      ({ c with categoryIds := none }.matched db).filter
        fun j => decide (∃ id ∈ ids, j.vacancy.specializationId = some id) := by
  have hnodup : (((joined db).filter
      fun j => decide ({ c with categoryIds := none }.Fits j)).map fun j => j.vacancy.id).Nodup :=
    (nodup_ids_joined h).sublist (List.filter_sublist.map _)
  rw [Criteria.matched, Criteria.matched, ← mergeSort_filter hnodup, List.filter_filter]
  congr 1
  apply List.filter_congr
  intro j _
  rw [Bool.eq_iff_iff, Bool.and_eq_true, decide_eq_true_eq, decide_eq_true_eq, decide_eq_true_eq,
    fits_category_iff hids c j, and_comm]

/-- A row refers to the id that one of some names has exactly if it has one of the names. -/
theorem Joined.Of.refers_iff (h : db.Conforms) (hj : j.Of db) (names : List String) :
    (∃ id ∈ names.filterMap (db.idOf? .specialization), j.vacancy.specializationId = some id) ↔
      ∃ name ∈ names, j.specialization = some name := by
  constructor
  · rintro ⟨id, hid, hrefers⟩
    obtain ⟨name, hname, hknown⟩ := List.mem_filterMap.1 hid
    have hentry := Database.mem_rows_of_idOf? hknown
    rcases hj.specialization with ⟨hnone, -⟩ | ⟨l, hl, hsome, hshown⟩
    · rw [hnone] at hrefers
      exact nomatch hrefers
    · have hsame : l.id = id := Option.some.inj (hsome.symm.trans hrefers)
      have heq : l = ⟨id, name⟩ :=
        List.inj_on_of_nodup_map (h.linked.nodup_entryIds _) hl hentry hsame
      exact ⟨name, hname, hshown.trans (congrArg (some ∘ Entry.name) heq)⟩
  · rintro ⟨name, hname, hshown⟩
    rcases hj.specialization with ⟨-, hnone⟩ | ⟨l, hl, hsome, hname'⟩
    · rw [hnone] at hshown
      exact nomatch hshown
    · obtain rfl : l.name = name := Option.some.inj (hname'.symm.trans hshown)
      have hknown := Database.idOf?_of_mem (h.linked.nodup_entryNames .specialization) hl
      exact ⟨l.id, List.mem_filterMap.2 ⟨l.name, hname, hknown⟩, hsome⟩

end JobBoard.Search
