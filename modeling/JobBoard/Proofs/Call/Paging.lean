import JobBoard.Proofs.Call.Finding
import JobBoard.Proofs.Call.Search

/-!
# Walking the pages

A page has room for a row, whatever the limits and the request are (`one_le_normalize`). So the
windows at the multiples of the page size cut a list into pages (`flatMap_windows`) until they have
covered it, and the pages of a search tile its matches (`pages_tile`).
-/

set_option autoImplicit false

namespace JobBoard

open Observe Search Store

/-- Every page has room for a row. -/
theorem SearchLimits.one_le_normalize (l : SearchLimits) (requested : Nat) :
    1 ≤ l.normalize requested := by
  rw [SearchLimits.normalize]
  split
  · omega
  · omega

/-! ## Windows of a list -/

section Windows

variable {α : Type}

/-- The first windows of a list, put together, are its beginning. -/
theorem flatMap_windows (all : List α) (size n : Nat) :
    ((List.range n).flatMap fun k => (all.drop (k * size)).take size) = all.take (n * size) := by
  induction n with
  | zero =>
    rw [Nat.zero_mul, List.take_zero]
    rfl
  | succ n ih =>
    rw [List.range_succ, List.flatMap_append, List.flatMap_singleton, ih, Nat.succ_mul,
      List.take_add]

/-- The windows of a list are full as long as it lasts; the last one is not, and after it there is
nothing. -/
theorem length_window_cases {size : Nat} (hsize : 1 ≤ size) (all : List α) (k : Nat) :
    let window := (all.drop (k * size)).take size
    (k < all.length / size → window.length = size) ∧
      (k = all.length / size → window.length < size) ∧
      (all.length / size < k → window = []) := by
  intro window
  have hlength : window.length = min size (all.length - k * size) := by
    rw [List.length_take, List.length_drop]
  have hmod := Nat.mod_lt all.length hsize
  have hdiv := Nat.div_add_mod' all.length size
  refine ⟨fun hlt => ?_, fun heq => ?_, fun hlt => ?_⟩
  · have hroom := Nat.mul_le_mul_right size (Nat.succ_le_of_lt hlt)
    rw [Nat.succ_mul] at hroom
    omega
  · rw [heq] at hlength
    omega
  · have hroom := Nat.mul_le_mul_right size (Nat.succ_le_of_lt hlt)
    rw [Nat.succ_mul] at hroom
    apply List.eq_nil_of_length_eq_zero
    omega

/-- The windows up to the one that is not full are the whole list. -/
theorem flatMap_windows_all {size : Nat} (hsize : 1 ≤ size) (all : List α) :
    ((List.range (all.length / size + 1)).flatMap fun k => (all.drop (k * size)).take size) =
      all := by
  have hmod := Nat.mod_lt all.length hsize
  have hdiv := Nat.div_add_mod' all.length size
  rw [flatMap_windows, Nat.succ_mul, List.take_of_length_le]
  omega

end Windows

/-! ## The matches of a search -/

/-- No more vacancies are shown than there are. -/
theorem Search.length_le_of_forall₂ {c : Criteria} {db : Database} {all : List VacancySummary}
    (h : List.Forall₂ Joined.Shows (c.matched db) all) :
    all.length ≤ (db.rows .vacancy).length := by
  have hjoined : (joined db).length ≤ (db.rows .vacancy).length := by
    have hsub := (map_vacancy_joinRows_sublist (db.rows .vacancy) (db.rows .employer)
      (db.rows (.dictionary .specialization))).length_le
    rwa [List.length_map] at hsub
  rw [← h.length_eq, Criteria.matched, List.length_mergeSort]
  exact (List.length_filter_le _ _).trans hjoined

namespace Call

/-- On conforming tables with fewer vacancies than a request can count, calls with nothing in their
way ask for the pages of one search. A page has room for a row and never holds more rows than it has
room for. All pages before one are full, that one is not, its offset can be asked for, and every
later page is empty. The pages up to that one, put together, show every match exactly once, newest
first; and every vacancy has exactly one row that may match. -/
theorem pages_tile (db : Database) (limits : SearchLimits) (c : Criteria) (s : Nat → Call)
    (hs : ∀ k, (s k).Searches c) (hview : ∀ k, (s k).connection.view = db) (hdb : db.Conforms)
    (hrows : (db.rows .vacancy).length < 4294967296) :
    let size := limits.normalize c.limit
    1 ≤ size ∧ ∃ (pages : Nat → List VacancySummary) (last : Nat),
      (∀ k, ((s k).search limits { c with offset := k * size }).1 = .ok (pages k)) ∧
      (∀ k, (pages k).length ≤ size) ∧
      (∀ k < last, (pages k).length = size) ∧ (pages last).length < size ∧
      last * size < 4294967296 ∧ (∀ k, last < k → pages k = []) ∧
      let all := (List.range (last + 1)).flatMap pages
      (all.map VacancySummary.id).Nodup ∧
      (all.Pairwise fun a b =>
        b.updatedAt < a.updatedAt ∨ a.updatedAt = b.updatedAt ∧ b.id < a.id) ∧
      (∀ m, m ∈ all ↔ ∃ j : Joined, j.Of db ∧ c.Fits j ∧ j.Shows m) ∧
      (∀ v ∈ db.rows .vacancy, ∃! j : Joined, j.Of db ∧ j.vacancy = v) ∧
      (c.Searchable → db.NulFree → ∀ j : Joined, j.Of db → (c.Fits j ↔ c.Admits j)) := by
  intro size
  have hsize : 1 ≤ size := limits.one_le_normalize c.limit
  obtain ⟨shown, hall⟩ := exists_forall₂_matched hdb c
  have hanswer : ∀ k, ((s k).search limits { c with offset := k * size }).1 =
      .ok ((shown.drop (k * size)).take size) := by
    intro k
    exact pages_of_forall₂ (hs k) ((hview k).symm ▸ hall) limits c.limit (k * size)
  have hcases := length_window_cases hsize shown
  refine ⟨hsize, fun k => (shown.drop (k * size)).take size, shown.length / size, hanswer, ?_,
    fun k => (hcases k).1, (hcases _).2.1 rfl, ?_, fun k => (hcases k).2.2, ?_⟩
  · intro k
    rw [List.length_take]
    exact Nat.min_le_left _ _
  · have hle := Nat.div_mul_le_self shown.length size
    have hlength := length_le_of_forall₂ hall
    omega
  · intro all
    have htiled : all = shown := flatMap_windows_all hsize shown
    have hids : (((joined db).filter fun j => decide (c.Fits j)).map
        fun j => j.vacancy.id).Nodup := (nodup_ids_joined hdb).sublist (List.filter_sublist.map _)
    rw [htiled]
    refine ⟨nodup_ids_of_forall₂ hall hids,
      pairwise_of_forall₂ hall (pairwise_matched hdb.linked c), ?_,
      fun v hv => existsUnique_joined hdb hv, ?_⟩
    · intro m
      rw [mem_iff_of_forall₂ hall]
      simp only [mem_matched_iff hdb, and_assoc]
    · intro hsearchable hnul j hj
      exact hsearchable.fits_iff_admits (hj.nulFree hnul)

/-- The call after so many pages of a walk, each of which was asked for right after the one before.
-/
def walk (limits : SearchLimits) (c : Criteria) (s : Call) : Nat → Call
  | 0 => s
  | k + 1 =>
    ((s.walk limits c k).search limits { c with offset := k * limits.normalize c.limit }).2

theorem reads_walk (limits : SearchLimits) (c : Criteria) (s : Call) (k : Nat) :
    Reads s (s.walk limits c k) := by
  induction k with
  | zero => exact .refl s
  | succ k ih => exact ih.trans (reads_search limits _ _)

/-- Where the settings leave no room at all, a walk goes through the small store row by row, and
shows both vacancies. -/
theorem pages_tile_sample :
    SearchLimits.normalize { defaultLimit := 7, maxLimit := 0 } 0 = 1 ∧
    ∃ (pages : Nat → List VacancySummary) (last : Nat),
      (∀ k, ((greekSample.walk { defaultLimit := 7, maxLimit := 0 } {} k).search
        { defaultLimit := 7, maxLimit := 0 } { offset := k }).1 = .ok (pages k)) ∧
      (∀ k < last, (pages k).length = 1) ∧ (∀ k, last ≤ k → pages k = []) ∧
      ∀ title ∈ ["ΚΟΣΜΟΣ", "Head of ΚΟΣ"], ∃ k < last, ∃ m ∈ pages k, m.title = title := by
  have hreads := reads_walk { defaultLimit := 7, maxLimit := 0 } {} greekSample
  have hsearches : greekSample.Searches {} :=
    ⟨greekSample_unhindered, rfl, greekTables_conforms.linked.exists_table, nofun, by decide⟩
  obtain ⟨-, pages, last, hanswer, -, hfull, hlast, -, hempty, -, -, hmem, -⟩ :=
    pages_tile greekTables { defaultLimit := 7, maxLimit := 0 } {}
      (greekSample.walk { defaultLimit := 7, maxLimit := 0 } {})
      (fun k => (hreads k).searches hsearches) (fun k => (hreads k).view) greekTables_conforms
      (by decide)
  have hsize : SearchLimits.normalize { defaultLimit := 7, maxLimit := 0 } 0 = 1 := by decide
  simp only [hsize, Nat.mul_one] at hanswer hfull hlast
  have hrest : ∀ k, last ≤ k → pages k = [] := by
    intro k hk
    rcases Nat.lt_or_eq_of_le hk with hlt | rfl
    · exact hempty k hlt
    · exact List.eq_nil_of_length_eq_zero (by omega)
  -- every vacancy is a match, and a match is on one of the pages
  have hshown : ∀ j : Joined, j.Of greekTables → ∃ k < last, ∃ m ∈ pages k,
      m.title = j.vacancy.title := by
    intro j hj
    obtain ⟨m, hm⟩ := exists_shows greekTables_conforms hj
    have hfits : Criteria.Fits {} j := ⟨nofun, nofun, nofun, nofun, nofun⟩
    obtain ⟨k, -, hmk⟩ := List.mem_flatMap.1 ((hmem m).2 ⟨j, hj, hfits, hm⟩)
    refine ⟨k, ?_, m, hmk, hm.title⟩
    by_contra hk
    rw [hrest k (by omega)] at hmk
    exact List.not_mem_nil hmk
  refine ⟨hsize, pages, last, hanswer, hfull, hrest, ?_⟩
  intro title htitle
  rcases List.mem_cons.1 htitle with rfl | htitle
  · exact hshown greekInside greekInside_of
  · obtain rfl := List.mem_singleton.1 htitle
    exact hshown greekApart greekApart_of

end Call

end JobBoard
