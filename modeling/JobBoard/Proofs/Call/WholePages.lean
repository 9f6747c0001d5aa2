import JobBoard.Proofs.Call.Finding

/-!
# Pages are whole

Rows that came in while rules were not checked may hold texts that no summary can show. A search
answers a page only if all rows of its window can be read, and then it shows each of them; one row
that cannot be read fails the whole page (`search_whole_or_failed`). What lies outside the window is
never read.
-/

set_option autoImplicit false

namespace JobBoard

open Observe Search Store

/-- The rows of a page: the window of the matches. -/
def Search.Criteria.pageRows (limits : SearchLimits) (c : Criteria) (db : Database) : List Joined :=
  ((c.matched db).drop c.offset).take (limits.normalize c.limit)

namespace Call

/-- A small store into which an employment came that is none of the list. -/
def garbledTables : Database :=
  { Database.sample with
    vacancy := some {
      rows := [
        ⟨1, 1, some 1, "Engineer", 1, "full_time", "no_matter", some 100, none, 0, 5⟩,
        ⟨2, 1, none, "Juggler", 1, "by_night", "no_matter", none, none, 0, 3⟩]
      indexes := TableName.vacancy.indexes } }

theorem garbledTables_linked : garbledTables.Linked := by decide

/-- The row of the vacancy that can be read. -/
def engineer : Joined :=
  ⟨⟨1, 1, some 1, "Engineer", 1, "full_time", "no_matter", some 100, none, 0, 5⟩, "Acme",
    some "backend"⟩

/-- The row of the vacancy that cannot be read. -/
def juggler : Joined :=
  ⟨⟨2, 1, none, "Juggler", 1, "by_night", "no_matter", none, none, 0, 3⟩, "Acme", none⟩

/-- A call on that store, with a token that never fires. -/
def garbledSample : Call := { connection := { committed := garbledTables } }

theorem garbledSample_unhindered : garbledSample.Unhindered :=
  ⟨Cancel.Signal.live_of_quiet rfl rfl, rfl, rfl⟩

theorem matched_garbledTables (limit offset : Nat) :
    Criteria.matched { limit, offset } garbledTables = [engineer, juggler] := by
  rw [matched_window {} limit offset]
  have hfits : (joined garbledTables).filter (fun j => decide (Criteria.Fits {} j)) =
      [engineer, juggler] := by
    decide +kernel
  rw [Criteria.matched, hfits]
  exact List.mergeSort_of_pairwise (by decide)

/-- A search with nothing in its way, whatever texts the tables hold, answers a page exactly if
every row of its window can be read, and then it shows these rows one by one. Otherwise it fails,
not for its token but for the first row of the window that cannot be read. A search with the same
rows in its window ends in the same way, whatever else its tables hold. If the tables are linked,
what the window is cut out of are the rows of the join that fit, newest first. -/
theorem search_whole_or_failed (limits : SearchLimits) (c : Criteria) (s : Call)
    (hs : s.Searches c) :
    let rows := c.pageRows limits s.connection.view
    let answer := (s.search limits c).1
    ((∃ page, answer = .ok page) ↔ ∀ j ∈ rows, j.Readable) ∧
      (∀ page, answer = .ok page → List.Forall₂ Joined.Shows rows page) ∧
      ((∃ j ∈ rows, ¬ j.Readable) → ∃ front j back f, rows = front ++ j :: back ∧
        (∀ i ∈ front, i.Readable) ∧ j.Garbled f ∧
        answer = .error (.internal Activity.search.text (some (.fault f))) ∧
        (StoreError.fault f).isCancellation = false) ∧
      (∀ (limits' : SearchLimits) (c' : Criteria) (s' : Call), s'.Searches c' →
        c'.pageRows limits' s'.connection.view = rows → (s'.search limits' c').1 = answer) ∧
      (s.connection.view.Linked →
        (∀ j, j ∈ c.matched s.connection.view ↔ j.Of s.connection.view ∧ c.Fits j) ∧
        (c.matched s.connection.view).Pairwise Newer) := by
  intro rows answer
  have hanswer : answer = (summaries rows).mapError
      fun f => .internal Activity.search.text (some (.fault f)) := answer_search limits hs
  refine ⟨⟨?_, ?_⟩, fun page => search_shows, ?_, ?_, ?_⟩
  · rintro ⟨page, hpage⟩
    exact readable_of_forall₂ (search_shows hpage)
  · intro hreadable
    obtain ⟨page, hpage⟩ := exists_forall₂_shows fun j hj => (hreadable j hj).exists_shows
    refine ⟨page, ?_⟩
    rw [hanswer, summaries_of_forall₂ hpage]
    rfl
  · rintro ⟨i, hi, hunreadable⟩
    rcases summaries_cases rows with
      ⟨page, -, hshows⟩ | ⟨front, j, back, f, hsplit, hfront, hgarbled, hf⟩
    · exact absurd (readable_of_forall₂ hshows i hi) hunreadable
    · rw [hf] at hanswer
      exact ⟨front, j, back, f, hsplit, hfront, hgarbled, hanswer, hgarbled.not_isInterrupt⟩
  · intro limits' c' s' hs' hrows
    have hanswer' := answer_search limits' hs'
    rw [← Criteria.pageRows, hrows] at hanswer'
    exact hanswer'.trans hanswer.symm
  · intro hlinked
    exact ⟨fun _ => mem_matched_iff_of_linked hlinked, pairwise_matched hlinked c⟩

/-- On that store the vacancy that can be read is alone on the first page, the other one fails the
second, and a floor keeps it out of every page. -/
theorem search_whole_or_failed_sample :
    (∃ m, (garbledSample.search {} { limit := 1 }).1 = .ok [m] ∧ engineer.Shows m) ∧
      (garbledSample.search {} { limit := 1, offset := 1 }).1 =
        .error (.internal "failed to search vacancies"
          (some (.fault (.unreadable 5 ⟨"employment", "by_night"⟩)))) ∧
      (garbledSample.search {} { minValue := some 50 }).1 =
        (garbledSample.search {} { limit := 1 }).1 := by
  have hview : garbledSample.connection.view = garbledTables := rfl
  have hfirst : ({ limit := 1 } : Criteria).pageRows {} garbledTables = [engineer] := by
    rw [Criteria.pageRows, matched_garbledTables]
    rfl
  have hsecond : ({ limit := 1, offset := 1 } : Criteria).pageRows {} garbledTables =
      [juggler] := by
    rw [Criteria.pageRows, matched_garbledTables]
    rfl
  have hpaid : ({ minValue := some 50 } : Criteria).pageRows {} garbledTables = [engineer] := by
    have hfits : (joined garbledTables).filter
        (fun j => decide (Criteria.Fits { minValue := some 50 } j)) = [engineer] := by
      decide +kernel
    rw [Criteria.pageRows, Criteria.matched, hfits, List.mergeSort_singleton]
    rfl
  have hsearches : ∀ c : Criteria, c.freeText = none →
      (compose c).arguments.length ≤ Refusal.parameterLimit → garbledSample.Searches c := by
    intro c hbare harguments
    refine ⟨garbledSample_unhindered, rfl, garbledTables_linked.exists_table, ?_, harguments⟩
    intro t ht
    obtain ⟨s, hs, -⟩ := (textFilter_eq_some_iff c t).1 ht
    rw [hbare] at hs
    cases hs
  obtain ⟨hok, hshows, -, hsame, -⟩ := search_whole_or_failed {} { limit := 1 } garbledSample
    (hsearches _ rfl (by decide))
  obtain ⟨-, -, hfailed, -⟩ := search_whole_or_failed {} { limit := 1, offset := 1 }
    garbledSample (hsearches _ rfl (by decide))
  rw [hview, hfirst] at hok hshows
  rw [hview, hsecond] at hfailed
  refine ⟨?_, ?_, ?_⟩
  · obtain ⟨page, hanswer⟩ := hok.2
      (List.forall_mem_singleton.2 ⟨⟨.fullTime, rfl⟩, ⟨.noMatter, rfl⟩⟩)
    obtain ⟨m, rest, hm, hrest, rfl⟩ := List.forall₂_cons_left_iff.1 (hshows page hanswer)
    cases hrest
    exact ⟨m, hanswer, hm⟩
  · have hunknown : ∀ e : Employment, e.text ≠ juggler.vacancy.employment := by
      intro e
      cases e <;> decide
    obtain ⟨front, j, back, f, hsplit, -, hgarbled, hanswer, -⟩ := hfailed
      ⟨juggler, List.mem_singleton_self _, (Joined.Garbled.employment hunknown).not_readable⟩
    have hmem : j ∈ [juggler] := hsplit ▸ List.mem_append_right front List.mem_cons_self
    obtain rfl := List.mem_singleton.1 hmem
    cases hgarbled with
    | employment => exact hanswer
    | experience known =>
      obtain ⟨e, he⟩ := known
      exact absurd he (hunknown e)
  · exact hsame {} { minValue := some 50 } garbledSample (hsearches _ rfl (by decide))
      (hpaid.trans hfirst.symm)

end Call

end JobBoard
