import JobBoard.Proofs.Call.Reading
import JobBoard.Proofs.Search.Matches
import JobBoard.Proofs.Text.Occurrence

/-!
# What a search finds

A search that answers shows a window of the matches (`search_shows`). With nothing in its way it
comes to reading that window (`answer_search`), and on conforming tables it answers a page
(`exists_pages`). A search by a text finds every row that has the text in one of its columns,
provided no capital sigma of the text stops or starts ending a word there
(`search_finds_occurrence`). Without that proviso it does not (`not_search_finds_all_occurrences`).
-/

set_option autoImplicit false

namespace JobBoard

open Observe Search Store

namespace Call

variable {s s' : Call} {c : Criteria}

/-! ## Pages -/

/-- A search that answers shows the window of the matches, whatever the tables are. -/
theorem search_shows {limits : SearchLimits} {page : List VacancySummary}
    (h : (s.search limits c).1 = .ok page) :
    List.Forall₂ Joined.Shows
      (((c.matched s.connection.view).drop c.offset).take (limits.normalize c.limit)) page := by
  have htold := connection_tell (.called .search) s
  rw [search, answer_observed, runSearch] at h
  rcases hr : during .search ((s.tell (.called .search)).ask ((composeWithin limits c).rows
    (s.tell (.called .search)).connection.foldsCase)) with ⟨e | rows, s'⟩
  · simp only [hr] at h
    exact nomatch h
  · have hask := (during_eq_ok_iff _ _ rows).1 (congrArg Prod.fst hr)
    have hrun := run_of_ask hask
    rw [htold] at hrun
    -- the page size is fixed before the statement is composed, and no filter looks at it
    have hrows := eq_of_run_rows (c := { c with limit := limits.normalize c.limit }) hrun
    rw [matched_window c _ c.offset] at hrows
    cases hsummaries : summaries rows with
    | error f =>
      simp only [hr, hsummaries] at h
      exact nomatch h
    | ok shown =>
      simp only [hr, hsummaries, Except.ok.injEq] at h
      rw [← hrows, ← h]
      exact forall₂_of_summaries hsummaries

/-- Every summary on a page shows a match. -/
theorem exists_of_search {limits : SearchLimits} (hdb : s.connection.view.Conforms)
    {page : List VacancySummary} (h : (s.search limits c).1 = .ok page) {m : VacancySummary}
    (hm : m ∈ page) : ∃ j : Joined, j.Of s.connection.view ∧ c.Fits j ∧ j.Shows m := by
  obtain ⟨j, hj, hshows⟩ := (mem_iff_of_forall₂ (search_shows h) m).1 hm
  obtain ⟨hof, hfits⟩ := (mem_matched_iff hdb).1 (List.mem_of_mem_drop (List.mem_of_mem_take hj))
  exact ⟨j, hof, hfits, hshows⟩

/-- A search by some criteria has nothing in its way: the call has not, the connection knows the
text filter's function, the tables are there, and the statement is within the store's limits. -/
structure Searches (s : Call) (c : Criteria) : Prop where
  unhindered : s.Unhindered
  foldsCase : s.connection.foldsCase = true
  tables : ∀ t, ∃ x, s.connection.view.table t = some x
  short : c.Short
  arguments : (compose c).arguments.length ≤ Refusal.parameterLimit

theorem Reads.searches (h : Reads s s') (hs : s.Searches c) : s'.Searches c where
  unhindered := h.unhindered hs.unhindered
  foldsCase := (Connection.foldsCase_of_settings h.settings).trans hs.foldsCase
  tables := h.view ▸ hs.tables
  short := hs.short
  arguments := hs.arguments

/-- A search with nothing in its way comes to reading its window. -/
theorem answer_search (limits : SearchLimits) (hs : s.Searches c) :
    (s.search limits c).1 = (summaries
      (((c.matched s.connection.view).drop c.offset).take (limits.normalize c.limit))).mapError
        fun f => .internal Activity.search.text (some (.fault f)) := by
  have htold := connection_tell (.called .search) s
  have hready := (reads_tell (.called .search) s).unhindered hs.unhindered
  let window := ((c.matched s.connection.view).drop c.offset).take (limits.normalize c.limit)
  have hanswer : ((s.tell (.called .search)).ask ((composeWithin limits c).rows
      (s.tell (.called .search)).connection.foldsCase)).1 = .ok window := by
    apply answer_ask hready.live hready.readable hready.unlocked
    · show (compose { c with limit := limits.normalize c.limit }).arguments.length ≤ _
      have harguments := hs.arguments
      rw [length_arguments] at harguments ⊢
      exact harguments
    · have hrun := run_rows_of_short (c := { c with limit := limits.normalize c.limit }) hs.short
        hs.tables
      rw [matched_window c _ c.offset] at hrun
      rw [htold, hs.foldsCase]
      exact hrun
  rw [search, answer_observed, runSearch]
  rcases hask : (s.tell (.called .search)).ask ((composeWithin limits c).rows
    (s.tell (.called .search)).connection.foldsCase) with ⟨outcome, s'⟩
  rw [hask] at hanswer
  obtain rfl : outcome = .ok window := hanswer
  show _ = (summaries window).mapError _
  cases hsummaries : summaries window with
  | error f => simp only [during, hsummaries, Except.mapError]
  | ok page => simp only [during, hsummaries, Except.mapError]

/-- The windows of a list that shows the matches are the pages of a search. -/
theorem pages_of_forall₂ (hs : s.Searches c) {all : List VacancySummary}
    (hall : List.Forall₂ Joined.Shows (c.matched s.connection.view) all) (limits : SearchLimits)
    (limit offset : Nat) : (s.search limits { c with limit, offset }).1 =
      .ok ((all.drop offset).take (limits.normalize limit)) := by
  have hwindow : s.Searches { c with limit, offset } := by
    refine ⟨hs.unhindered, hs.foldsCase, hs.tables, hs.short, ?_⟩
    have harguments := hs.arguments
    rw [length_arguments] at harguments ⊢
    exact harguments
  have hshown := summaries_of_forall₂
    (List.forall₂_take (limits.normalize limit) (List.forall₂_drop offset hall))
  rw [answer_search limits hwindow, matched_window, hshown]
  rfl

theorem exists_forall₂_matched {db : Database} (hdb : db.Conforms) (c : Criteria) :
    ∃ all, List.Forall₂ Joined.Shows (c.matched db) all := by
  apply exists_forall₂_shows
  intro j hj
  exact exists_shows hdb ((mem_matched_iff hdb).1 hj).1

/-- The pages of a search are the windows of one list, the summaries of the matches. -/
theorem exists_pages (hs : s.Unhindered) (hfolds : s.connection.foldsCase = true)
    (hdb : s.connection.view.Conforms) (hshort : c.Short)
    (harguments : (compose c).arguments.length ≤ Refusal.parameterLimit) :
    ∃ all, List.Forall₂ Joined.Shows (c.matched s.connection.view) all ∧
      ∀ limits limit offset, (s.search limits { c with limit, offset }).1 =
        .ok ((all.drop offset).take (limits.normalize limit)) := by
  have hsearches : s.Searches c := ⟨hs, hfolds, hdb.linked.exists_table, hshort, harguments⟩
  obtain ⟨all, hall⟩ := exists_forall₂_matched hdb c
  exact ⟨all, hall, pages_of_forall₂ hsearches hall⟩

/-- A list whose windows are the pages of a search shows the matches: some page is wide enough for
all of them. -/
theorem forall₂_of_pages {all : List VacancySummary}
    (h : ∀ limits limit offset, (s.search limits { c with limit, offset }).1 =
      .ok ((all.drop offset).take (limits.normalize limit))) :
    List.Forall₂ Joined.Shows (c.matched s.connection.view) all := by
  let size := all.length + (c.matched s.connection.view).length + 1
  have hsize : SearchLimits.normalize { maxLimit := size } size = size := by
    simp [SearchLimits.normalize, size]
  have hwide := search_shows (h { maxLimit := size } size 0)
  rw [matched_window, hsize, List.drop_zero, List.drop_zero, List.take_of_length_le,
    List.take_of_length_le] at hwide
  · exact hwide
  · omega
  · omega

/-! ## Texts that occur -/

/-- A row with a text in one of its columns fits a search by that text. -/
theorem fits_of_occurrence {q text : String} {front back : List Char} {j : Joined}
    {column : TextColumn} (hsearchable : Criteria.Searchable { freeText := some q })
    (hnul : j.NulFree) (hcolumn : column.value j = some text)
    (hoccurs : text.toList = front ++ (Text.trim q).toList ++ back)
    (hsigmas : Text.SigmasAgree front (Text.trim q).toList back) :
    Criteria.Fits { freeText := some q } j := by
  -- the column is lowered whole, and what was searched for is still in it
  have hmentions : Mentions text (Text.trim q) := by
    unfold Mentions Text.lowercase
    rw [String.toList_ofList, String.toList_ofList, hoccurs]
    exact Text.lowerList_infix hsigmas
  rw [hsearchable.fits_iff_admits hnul]
  refine ⟨?_, nofun, nofun, nofun, nofun⟩
  intro s hs _
  obtain rfl := Option.some.inj hs
  cases column with
  | title =>
    obtain rfl := Option.some.inj hcolumn
    exact .inl hmentions
  | specialization => exact .inr (.inr ⟨text, hcolumn, hmentions⟩)
  | company =>
    obtain rfl := Option.some.inj hcolumn
    exact .inr (.inl hmentions)

/-- A small store with a title that has a capital sigma inside its word, and one that has it at the
end of a word. -/
def greekTables : Database :=
  { Database.sample with
    vacancy := some {
      rows := [
        ⟨1, 1, some 1, "ΚΟΣΜΟΣ", 1, "full_time", "no_matter", none, none, 0, 5⟩,
        ⟨2, 1, none, "Head of ΚΟΣ", 1, "full_time", "no_matter", none, none, 0, 5⟩]
      indexes := TableName.vacancy.indexes } }

theorem greekTables_conforms : greekTables.Conforms := by decide

/-- The row of the first title: a sigma stands inside the word, and another one ends it. -/
def greekInside : Joined :=
  ⟨⟨1, 1, some 1, "ΚΟΣΜΟΣ", 1, "full_time", "no_matter", none, none, 0, 5⟩, "Acme", some "backend"⟩

/-- The row of the second title: the sigma ends the word. -/
def greekApart : Joined :=
  ⟨⟨2, 1, none, "Head of ΚΟΣ", 1, "full_time", "no_matter", none, none, 0, 5⟩, "Acme", none⟩

theorem greekInside_of : greekInside.Of greekTables :=
  ⟨by decide, ⟨_, List.mem_singleton_self _, rfl, rfl⟩,
    .inr ⟨_, List.mem_singleton_self _, rfl, rfl⟩⟩

theorem greekInside_nulFree : greekInside.NulFree := ⟨by decide, by decide, by decide⟩

theorem greekApart_of : greekApart.Of greekTables :=
  ⟨by decide, ⟨_, List.mem_singleton_self _, rfl, rfl⟩, .inl ⟨rfl, rfl⟩⟩

/-- A call on that store, with a token that never fires. -/
def greekSample : Call := { connection := { committed := greekTables } }

theorem greekSample_unhindered : greekSample.Unhindered :=
  ⟨Cancel.Signal.live_of_quiet rfl rfl, rfl, rfl⟩

/-- A search by a text alone, with nothing in its way, finds every row that has the text in one of
its columns, letter for letter, if each capital sigma of the text ends a word in the text exactly if
it does so in the column. The pages of the search are the windows of one list, and a summary of the
row is in it. -/
theorem search_finds_occurrence (s : Call) (q text : String) (front back : List Char) (j : Joined)
    (column : TextColumn) (hs : s.Unhindered) (hfolds : s.connection.foldsCase = true)
    (hdb : s.connection.view.Conforms) (hj : j.Of s.connection.view) (hnul : j.NulFree)
    (hq : Text.NulFree q.toList) (hblank : Text.trim q ≠ "")
    (hshort : (patternOf (Text.trim q)).utf8ByteSize ≤ Text.patternByteLimit)
    (hcolumn : column.value j = some text)
    (hoccurs : text.toList = front ++ (Text.trim q).toList ++ back)
    (hsigmas : Text.SigmasAgree front (Text.trim q).toList back) :
    ∃ all : List VacancySummary,
      (∀ limits limit offset, (s.search limits { freeText := some q, limit, offset }).1 =
        .ok ((all.drop offset).take (limits.normalize limit))) ∧
      ∃ m ∈ all, j.Shows m := by
  have hsearchable : Criteria.Searchable { freeText := some q } := by
    refine ⟨?_, ?_⟩
    · intro s hs
      obtain rfl := Option.some.inj hs
      exact hq
    · intro t ht
      obtain ⟨s, hs, -, rfl⟩ := (textFilter_eq_some_iff _ t).1 ht
      obtain rfl := Option.some.inj hs
      exact hshort
  have harguments : (compose { freeText := some q }).arguments.length ≤ Refusal.parameterLimit := by
    have hfilter : Criteria.textFilter { freeText := some q } = some (Text.trim q) :=
      (textFilter_eq_some_iff _ _).2 ⟨q, rfl, hblank, rfl⟩
    rw [length_arguments, Criteria.filters, hfilter]
    show 3 + 2 ≤ Refusal.parameterLimit
    decide
  obtain ⟨all, hall, hpages⟩ := exists_pages hs hfolds hdb hsearchable.short harguments
  refine ⟨all, hpages, ?_⟩
  obtain ⟨m, hm⟩ := exists_shows hdb hj
  have hfits := fits_of_occurrence hsearchable hnul hcolumn hoccurs hsigmas
  exact ⟨m, (mem_iff_of_forall₂ hall m).2 ⟨j, (mem_matched_iff hdb).2 ⟨hj, hfits⟩, hm⟩, hm⟩

/-- A word stands apart in the title of the second vacancy, and is found there. A text without a
capital sigma is found wherever it stands, such as in the company of the first. -/
theorem search_finds_occurrence_sample :
    (∃ all : List VacancySummary,
      (∀ limits limit offset,
        (greekSample.search limits { freeText := some " ΚΟΣ ", limit, offset }).1 =
          .ok ((all.drop offset).take (limits.normalize limit))) ∧
      ∃ m ∈ all, m.title = "Head of ΚΟΣ") ∧
    ∃ all : List VacancySummary,
      (∀ limits limit offset,
        (greekSample.search limits { freeText := some "cme", limit, offset }).1 =
          .ok ((all.drop offset).take (limits.normalize limit))) ∧
      ∃ m ∈ all, m.title = "ΚΟΣΜΟΣ" := by
  constructor
  · have htrim : Text.trim " ΚΟΣ " = "ΚΟΣ" := by decide +kernel
    have hsigmas : Text.SigmasAgree "Head of ".toList (Text.trim " ΚΟΣ ").toList [] :=
      Text.sigmasAgree_of_apart (by decide +kernel) rfl _
    obtain ⟨all, hpages, m, hm, hshows⟩ := search_finds_occurrence greekSample " ΚΟΣ "
      "Head of ΚΟΣ" "Head of ".toList [] greekApart .title greekSample_unhindered rfl
      greekTables_conforms greekApart_of ⟨by decide, by decide, nofun⟩ (by decide)
      (by decide +kernel) (by decide +kernel) rfl (by rw [htrim]; decide) hsigmas
    exact ⟨all, hpages, m, hm, hshows.title⟩
  · have htrim : Text.trim "cme" = "cme" := by decide +kernel
    have hsigmas : Text.SigmasAgree ['A'] (Text.trim "cme").toList [] :=
      Text.sigmasAgree_of_not_mem (by rw [htrim]; decide) _ _
    obtain ⟨all, hpages, m, hm, hshows⟩ := search_finds_occurrence greekSample "cme" "Acme" ['A'] []
      greekInside .company greekSample_unhindered rfl greekTables_conforms greekInside_of
      greekInside_nulFree (by decide) (by decide +kernel) (by decide +kernel) rfl
      (by rw [htrim]; decide) hsigmas
    exact ⟨all, hpages, m, hm, hshows.title⟩

/-- Where the sigmas disagree, the text can be missed: the first title begins with it, but a final
sigma is not the one that stands inside a word. -/
theorem not_search_finds_all_occurrences :
    ¬ ∀ (s : Call) (q text : String) (front back : List Char) (j : Joined) (column : TextColumn),
      s.Unhindered → s.connection.foldsCase = true → s.connection.view.Conforms →
      j.Of s.connection.view → j.NulFree → Text.NulFree q.toList → Text.trim q ≠ "" →
      (patternOf (Text.trim q)).utf8ByteSize ≤ Text.patternByteLimit →
      column.value j = some text → text.toList = front ++ (Text.trim q).toList ++ back →
      ∃ all : List VacancySummary,
        (∀ limits limit offset, (s.search limits { freeText := some q, limit, offset }).1 =
          .ok ((all.drop offset).take (limits.normalize limit))) ∧
        ∃ m ∈ all, j.Shows m := by
  intro h
  have htrim : Text.trim "ΚΟΣ" = "ΚΟΣ" := by decide +kernel
  obtain ⟨all, hpages, m, hm, hshows⟩ := h greekSample "ΚΟΣ" "ΚΟΣΜΟΣ" [] "ΜΟΣ".toList
    greekInside .title greekSample_unhindered rfl greekTables_conforms greekInside_of
    greekInside_nulFree (by decide) (by decide +kernel) (by decide +kernel) rfl
    (by rw [htrim]; decide)
  have hfits : (joined greekTables).filter
      (fun j => decide (Criteria.Fits { freeText := some "ΚΟΣ" } j)) = [greekApart] := by
    decide +kernel
  have hmatched : Criteria.matched { freeText := some "ΚΟΣ" } greekTables = [greekApart] := by
    rw [Criteria.matched, hfits, List.mergeSort_singleton]
  have hall := forall₂_of_pages (c := { freeText := some "ΚΟΣ" }) hpages
  rw [show greekSample.connection.view = greekTables from rfl, hmatched] at hall
  obtain ⟨j', hj', hshows'⟩ := (mem_iff_of_forall₂ hall m).1 hm
  obtain rfl := List.mem_singleton.1 hj'
  exact absurd (hshows.id.symm.trans hshows'.id) (by decide)

end Call

end JobBoard
