import JobBoard.Call.Search
import JobBoard.Proofs.Call.Guard
import JobBoard.Proofs.Search.Matches

/-!
# What a search returns

On conforming tables a search with a live token returns the window of all vacancies that the
criteria admit, newest first. The main theorem is `search_eq_window`.
-/

set_option autoImplicit false

namespace JobBoard

open Observe Search Store

/-- The texts that a search looks at have no NUL in them. -/
structure Store.Database.NulFree (db : Database) : Prop where
  titles : ∀ v ∈ db.rows .vacancy, Text.NulFree v.title.toList
  companies : ∀ e ∈ db.rows .employer, Text.NulFree e.companyName.toList
  specializations : ∀ l ∈ db.rows (.dictionary .specialization), Text.NulFree l.name.toList

theorem Search.Joined.Of.nulFree {db : Database} (h : db.NulFree) {j : Joined} (hj : j.Of db) :
    j.NulFree := by
  refine ⟨h.titles _ hj.vacancy, ?_, ?_⟩
  · obtain ⟨e, he, -, hcompany⟩ := hj.company
    rw [← hcompany]
    exact h.companies e he
  · intro name hname
    rcases hj.specialization with ⟨-, hnone⟩ | ⟨l, hl, -, hsome⟩
    · rw [hnone] at hname
      exact nomatch hname
    · rw [hsome] at hname
      obtain rfl := Option.some.inj hname
      exact h.specializations l hl

namespace Call

/-- The answer of the composed statement: the window of the joined rows that are kept. -/
theorem run_rows {c : Criteria} {db : Database} (hc : c.Searchable) (hdb : db.Conforms)
    (hnul : db.NulFree) :
    ((compose c).rows true).run db =
      .ok (.ok (window (compose c) ((joined db).filter (compose c).keeps))) := by
  have hselect : selectRows (compose c) (joined db) =
      .ok ((joined db).filter (compose c).keeps) := by
    apply selectRows_eq_filter
    intro j hj
    exact (keeps_iff hc (((mem_joined_iff hdb j).1 hj).nulFree hnul)).1
  show ((compose c).source true db).map (fun rows => (selectRows (compose c) rows).map _) = _
  rw [source_of_tables hdb.linked.exists_table, Except.map, hselect, Except.map]

/-- With a live token, on a readable connection that nobody keeps from reading and that knows the
text filter's function, and on conforming tables, a search returns the window of all that it could
show. This is the summaries of exactly those joined rows that the criteria admit, newest first, none
of them twice; and every vacancy has exactly one joined row. -/
theorem search_eq_window (limits : SearchLimits) (c : Criteria) (s : Call)
    (hlive : s.signal.Live) (hreadable : s.connection.readable = true)
    (hunlocked : s.connection.readBlocked = false) (hfolds : s.connection.foldsCase = true)
    (hdb : s.connection.view.Conforms) (hnul : s.connection.view.NulFree) (hc : c.Searchable)
    (harguments : (composeWithin limits c).arguments.length ≤ Refusal.parameterLimit) :
    ∃ all : List VacancySummary,
      (s.search limits c).1 = .ok ((all.drop c.offset).take (limits.normalize c.limit)) ∧
        (all.map VacancySummary.id).Nodup ∧
        (all.Pairwise fun a b =>
          b.updatedAt < a.updatedAt ∨ a.updatedAt = b.updatedAt ∧ b.id < a.id) ∧
        (∀ m, m ∈ all ↔ ∃ j : Joined, j.Of s.connection.view ∧ c.Admits j ∧ j.Shows m) ∧
        ∀ v ∈ s.connection.view.rows .vacancy,
          ∃! j : Joined, j.Of s.connection.view ∧ j.vacancy = v := by
  generalize hc' : ({ c with limit := limits.normalize c.limit } : Criteria) = c'
  have hcompose : composeWithin limits c = compose c' := by rw [← hc']; rfl
  have hsearchable : c'.Searchable := by subst hc'; exact ⟨hc.nulFree, hc.short⟩
  have hadmits : ∀ j, c'.Admits j ↔ c.Admits j := by
    intro j
    subst hc'
    exact ⟨fun h => ⟨h.text, h.category, h.salary, h.employment, h.experience⟩,
      fun h => ⟨h.text, h.category, h.salary, h.employment, h.experience⟩⟩
  generalize hview : s.connection.view = db at hdb hnul
  let kept := (joined db).filter (compose c').keeps
  have hkept : ∀ j, j ∈ kept ↔ j.Of db ∧ c.Admits j := by
    intro j
    rw [List.mem_filter, mem_joined_iff hdb j, ← hadmits]
    constructor
    · rintro ⟨hj, hkeeps⟩
      exact ⟨hj, (keeps_iff hsearchable (hj.nulFree hnul)).2.1 hkeeps⟩
    · rintro ⟨hj, hj'⟩
      exact ⟨hj, (keeps_iff hsearchable (hj.nulFree hnul)).2.2 hj'⟩
  -- what is kept is a part of the join, where no vacancy stands twice
  have hids : (kept.map fun j => j.vacancy.id).Nodup :=
    (nodup_ids_joined hdb).sublist (List.filter_sublist.map _)
  have hshown : ∀ j ∈ kept.mergeSort newerFirst, ∃ m, j.Shows m := by
    intro j hj
    exact exists_shows hdb ((hkept j).1 (List.mem_mergeSort.1 hj)).1
  obtain ⟨all, hall⟩ := exists_forall₂_shows hshown
  refine ⟨all, ?_, nodup_ids_of_forall₂ hall hids,
    pairwise_of_forall₂ hall (pairwise_newer hids), fun m => ?_,
    fun v hv => existsUnique_joined hdb hv⟩
  · have htold := connection_tell (.called .search) s
    have hanswer : ((s.tell (.called .search)).ask
        ((compose c').rows (s.tell (.called .search)).connection.foldsCase)).1 =
          .ok (window (compose c') kept) := by
      refine answer_ask (live_tell hlive _) (htold ▸ hreadable) (htold ▸ hunlocked) ?_ ?_
      · exact hcompose ▸ harguments
      · rw [htold, hview, hfolds]
        exact run_rows hsearchable hdb hnul
    have hpage := summaries_window c' hall
    rw [search, answer_observed, hcompose, runSearch]
    rcases hask : (s.tell (.called .search)).ask
      ((compose c').rows (s.tell (.called .search)).connection.foldsCase) with ⟨outcome, s'⟩
    rw [hask] at hanswer
    obtain rfl : outcome = .ok (window (compose c') kept) := hanswer
    simp only [during, hpage]
    subst hc'
    rfl
  · rw [mem_iff_of_forall₂ hall]
    constructor
    · rintro ⟨j, hj, hshows⟩
      obtain ⟨hof, hadmitted⟩ := (hkept j).1 (List.mem_mergeSort.1 hj)
      exact ⟨j, hof, hadmitted, hshows⟩
    · rintro ⟨j, hof, hadmitted, hshows⟩
      exact ⟨j, List.mem_mergeSort.2 ((hkept j).2 ⟨hof, hadmitted⟩), hshows⟩

/-- On the small store the only vacancy mentions the text and pays enough. -/
theorem search_eq_window_sample :
    ∃ all : List VacancySummary,
      (sample.search {} { freeText := some " ENGI ", minValue := some 50 }).1 =
          .ok ((all.drop 0).take (SearchLimits.normalize {} 0)) ∧
        ∃ m ∈ all, m.title = "Engineer" := by
  have htext : Text.trim " ENGI " = "ENGI" := by decide +kernel
  have hmentions : Mentions "Engineer" "ENGI" := by
    unfold Mentions
    decide +kernel
  have hnul : Database.sample.NulFree := ⟨by decide, by decide, by decide⟩
  have hsearchable : Criteria.Searchable { freeText := some " ENGI ", minValue := some 50 } := by
    refine ⟨fun s hs => ?_, fun t ht => ?_⟩
    · obtain rfl := Option.some.inj hs
      decide
    · obtain ⟨s, hs, -, rfl⟩ := (textFilter_eq_some_iff _ t).1 ht
      obtain rfl := Option.some.inj hs
      rw [htext]
      decide +kernel
  obtain ⟨all, hpage, -, -, hall, -⟩ := search_eq_window {} _ sample
    (Cancel.Signal.live_of_quiet rfl rfl) rfl rfl rfl Database.sample_conforms hnul hsearchable
    (by decide +kernel)
  refine ⟨all, hpage, ?_⟩
  let j : Joined := ⟨⟨1, 1, some 1, "Engineer", 1, "full_time", "no_matter", some 100, none, 0, 5⟩,
    "Acme", some "backend"⟩
  have hj : j.Of Database.sample := ⟨by decide, ⟨_, List.mem_singleton_self _, rfl, rfl⟩,
    .inr ⟨_, List.mem_singleton_self _, rfl, rfl⟩⟩
  obtain ⟨m, hm⟩ := exists_shows Database.sample_conforms hj
  refine ⟨m, (hall m).2 ⟨j, hj, ⟨?_, nofun, ?_, nofun, nofun⟩, hm⟩, hm.title⟩
  · rintro s hs -
    obtain rfl := Option.some.inj hs
    rw [htext]
    exact .inl hmentions
  · intro floor hfloor
    obtain rfl := Option.some.inj hfloor
    exact ⟨100, rfl, by omega⟩

end Call

end JobBoard
