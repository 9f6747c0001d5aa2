import JobBoard.Call.Search
import JobBoard.Proofs.Call.Entries

/-!
# Calls that only read

Looking at the tables leaves them as they are: at most, an open transaction comes to pin what it
sees (`Reads`). Most calls of the board do no more (`reads_getById`, `reads_searchFor` and so on),
and the entries that they answer are those that the tables hold (`getById_known` and so on).
-/

set_option autoImplicit false

namespace JobBoard

open Observe Store

variable {d : Dictionary}

theorem mem_of_joinedEntries {k : EdgeKind} {owner : Int} {db : Database} {joined : List Entry}
    (h : joinedEntries k owner db = .ok joined) {e : Entry} (he : e ∈ joined) :
    e ∈ db.rows (.dictionary k.dictionary) := by
  unfold joinedEntries at h
  split at h
  · simp at h
  · simp at h
  · simp at h
  · simp at h
  · rename_i edges entries _ hentries
    obtain rfl := Except.ok.inj h
    rw [Database.rows_of_table ((db.occupant_eq_own_iff _ entries).1 hentries)]
    obtain ⟨_, _, he⟩ := List.mem_flatMap.1 he
    exact List.mem_of_mem_filter he

namespace Call

variable {s s' s'' : Call} {areas : List Area}

/-! ## Reading -/

/-- From one state of a call to a later one nothing but reading happened: the connection is as it
was, or has pinned what it sees, and the token lives if it did. -/
structure Reads (s s' : Call) : Prop where
  connection : s'.connection = s.connection ∨ s'.connection = s.connection.pin
  live : s.signal.Live → s'.signal.Live

theorem Reads.refl (s : Call) : Reads s s := ⟨.inl rfl, id⟩

theorem Reads.trans (h : Reads s s') (h' : Reads s' s'') : Reads s s'' := by
  refine ⟨?_, fun hlive => h'.live (h.live hlive)⟩
  rcases h.connection with hc | hc <;> rcases h'.connection with hc' | hc' <;> rw [hc] at hc'
  · exact .inl hc'
  · exact .inr hc'
  · exact .inr hc'
  · rw [Connection.pin_pin] at hc'
    exact .inr hc'

theorem Reads.settings (h : Reads s s') :
    s'.connection.settings = s.connection.settings := by
  rcases h.connection with hc | hc <;> rw [hc]
  exact Connection.settings_pin _

theorem Reads.committed (h : Reads s s') :
    s'.connection.committed = s.connection.committed := by
  rcases h.connection with hc | hc <;> rw [hc]
  exact Connection.committed_pin _

theorem Reads.view (h : Reads s s') : s'.connection.view = s.connection.view := by
  rcases h.connection with hc | hc <;> rw [hc]
  exact Connection.view_pin _

/-- Outside a transaction there is nothing to pin. -/
theorem Reads.alone (h : Reads s s') (hs : s.connection.transaction = none) :
    s'.connection = s.connection := by
  rcases h.connection with hc | hc
  · exact hc
  · exact hc.trans (Connection.pin_of_alone hs)

theorem Reads.leads (h : Reads s s') : Leads areas s s' :=
  fun hs => Leads.of_connection_eq (h.alone hs) hs

theorem reads_note (n : Note) (s : Call) : Reads s (s.note n) := ⟨.inl rfl, id⟩

theorem reads_tell (e : Event) (s : Call) : Reads s (s.tell e) :=
  ⟨.inl (connection_tell e s), fun hlive => live_tell hlive e⟩

theorem reads_ask {α : Type} (q : Query α) (s : Call) : Reads s (s.ask q).2 := by
  have hlive : s.signal.Live → s.check.2.signal.Live := by
    intro h
    rw [signal_check]
    exact h.tick .check
  rcases s.check_cases with ⟨r, -, hcheck⟩ | ⟨-, hcheck⟩
  · rw [ask_of_abandoned hcheck]
    exact ⟨.inl (connection_check s), hlive⟩
  · rw [ask_of_live hcheck]
    exact ⟨s.connection.read_cases q, hlive⟩

theorem reads_observed {α : Type} {op : Operation} {run : Call → Answered Call α}
    (hrun : ∀ s, Reads s (run s).2) (s : Call) : Reads s (observed tell op run s).2 := by
  have hran := (reads_tell (.called op) s).trans (hrun _)
  unfold observed
  rcases hr : run (s.tell (.called op)) with ⟨e | a, s'⟩ <;> rw [hr] at hran
  · exact hran.trans (reads_tell (.failed op e) s')
  · exact hran

theorem reads_during_ask {α : Type} (a : Activity) (q : Query α) (s : Call) :
    Reads s (during a (s.ask q)).2 := by
  rw [state_during]
  exact reads_ask q s

/-! ## Calls that nothing keeps from an answer -/

/-- The token of the call is live, the file can be read, and nobody else keeps the connection from
reading. -/
structure Unhindered (s : Call) : Prop where
  live : s.signal.Live
  readable : s.connection.readable = true
  unlocked : s.connection.readBlocked = false

theorem Reads.unhindered (h : Reads s s') (hs : s.Unhindered) : s'.Unhindered := by
  refine ⟨h.live hs.live, ?_, ?_⟩
  · rw [Connection.readable_of_settings h.settings]
    exact hs.readable
  · rcases h.connection with hc | hc
    · rw [hc]
      exact hs.unlocked
    · rw [hc]
      exact Connection.readBlocked_pin hs.unlocked

theorem sample_unhindered : sample.Unhindered := ⟨Cancel.Signal.live_of_quiet rfl rfl, rfl, rfl⟩

/-! ## Entries -/

/-- An announced question about the entries of a dictionary is answered off its committed table. -/
theorem eq_of_observed_ofEntries {α : Type} {op : Operation} {a : Activity} {n : Nat}
    {f : List Entry → α} {x : α} (hs : s.connection.transaction = none)
    (h : (observed tell op (fun s => during a (s.ask (ofEntries d n f))) s).1 = .ok x) :
    x = f (s.connection.committed.rows (.dictionary d)) := by
  have htold := connection_tell (.called op) s
  rw [answer_observed, during_eq_ok_iff] at h
  rw [← htold]
  exact eq_of_ask_ofEntries (htold ▸ hs) h

theorem reads_getById (d : Dictionary) (id : Int) (s : Call) :
    Reads s (s.getById d id).2 := by
  refine reads_observed (fun s => ?_) s
  have h : Reads s _ := reads_during_ask (.getOne d) (entryOfId d id) s
  rcases hr : during (.getOne d) (s.ask (entryOfId d id)) with ⟨_ | _ | e, s'⟩ <;>
    rw [hr] at h <;> exact h

/-- The entry of an id is the one that the tables hold. -/
theorem getById_known {id : Int} {e : Entry} (hs : s.connection.transaction = none)
    (h : (s.getById d id).1 = .ok e) : s.Knows d e ∧ e.id = id := by
  have htold := connection_tell (.called .lookupRead) s
  rw [getById, answer_observed] at h
  have hanswer : (during (.getOne d)
      ((s.tell (.called .lookupRead)).ask (entryOfId d id))).1 = .ok (some e) := by
    rcases hr : during (.getOne d) ((s.tell (.called .lookupRead)).ask (entryOfId d id)) with
      ⟨_ | _ | e', s'⟩
    · simp [hr] at h
    · simp [hr] at h
    · simpa [hr] using h
  have hfound := eq_of_ask_ofEntries (htold.symm ▸ hs) ((during_eq_ok_iff _ _ _).1 hanswer)
  rw [htold] at hfound
  exact ⟨List.mem_of_find?_eq_some hfound.symm, by simpa using List.find?_some hfound.symm⟩

theorem reads_getByIds (d : Dictionary) (ids : List Int) (s : Call) :
    Reads s (s.getByIds d ids).2 := by
  cases ids with
  | nil => exact .refl s
  | cons => exact reads_observed (reads_during_ask _ _) s

theorem getByIds_known {ids : List Int} {es : List Entry} (hs : s.connection.transaction = none)
    (h : (s.getByIds d ids).1 = .ok es) : ∀ e ∈ es, s.Knows d e := by
  cases ids with
  | nil =>
    obtain rfl : [] = es := Except.ok.inj h
    simp
  | cons =>
    obtain rfl := eq_of_observed_ofEntries hs h
    exact fun e he => List.mem_of_mem_filter (List.mem_mergeSort.1 he)

theorem reads_listAll (d : Dictionary) (s : Call) : Reads s (s.listAll d).2 :=
  reads_observed (reads_during_ask _ _) s

theorem listAll_known {es : List Entry} (hs : s.connection.transaction = none)
    (h : (s.listAll d).1 = .ok es) : ∀ e ∈ es, s.Knows d e := by
  obtain rfl := eq_of_observed_ofEntries hs h
  exact fun e he => List.mem_mergeSort.1 he

theorem reads_findIdsByNames (d : Dictionary) (list : List String) (s : Call) :
    Reads s (s.findIdsByNames d list).2 := by
  cases list with
  | nil => exact .refl s
  | cons name rest =>
    refine reads_observed (fun s => ?_) s
    have h : Reads s _ := reads_during_ask (.findNames d)
      (entriesOfNames d (firstsBy id [] (name :: rest))) s
    rcases hr : during (.findNames d) (s.ask (entriesOfNames d (firstsBy id [] (name :: rest))))
      with ⟨_ | found, s'⟩ <;> rw [hr] at h <;> exact h

/-- The ids of names are those that the connection sees, in the order in which the names occur
first; names without an id are passed over. -/
theorem eq_of_findIdsByNames {list : List String} {ids : List Int}
    (h : (s.findIdsByNames d list).1 = .ok ids) :
    ids = (firstsBy id [] list).filterMap (s.connection.view.idOf? d) := by
  cases list with
  | nil =>
    obtain rfl : [] = ids := Except.ok.inj h
    rfl
  | cons name rest =>
    have htold := connection_tell (.called .lookupRead) s
    simp only [findIdsByNames, answer_observed] at h
    generalize firstsBy id [] (name :: rest) = unique at h ⊢
    rcases hr : during (.findNames d) ((s.tell (.called .lookupRead)).ask (entriesOfNames d unique))
      with ⟨_ | found, s'⟩
    · simp [hr] at h
    · have hanswer := (during_eq_ok_iff _ _ found).1 (congrArg Prod.fst hr)
      have hfound := run_ofEntries (run_of_ask hanswer)
      rw [htold] at hfound
      simp only [hr, Except.ok.injEq] at h
      rw [← h, hfound]
      apply List.filterMap_congr
      intro n hn
      -- among the entries of all names, the first of one name is the first that the table has
      rw [Database.idOf?, List.find?_filter]
      congr 2
      funext e
      by_cases he : e.name = n
      · simp [he, hn]
      · simp [he]

theorem error_of_findIdsByNames {list : List String} {e : BoardError}
    (h : (s.findIdsByNames d list).1 = .error e) :
    ∃ cause, e = .internal (Activity.findNames d).text (some cause) := by
  cases list with
  | nil => cases h
  | cons name rest =>
    simp only [findIdsByNames, answer_observed] at h
    rcases hr : (s.tell (.called .lookupRead)).ask
      (entriesOfNames d (firstsBy id [] (name :: rest))) with ⟨cause | found, s'⟩
    · simp only [hr, during, Except.error.injEq] at h
      exact ⟨cause, h.symm⟩
    · simp only [hr, during] at h
      cases h

/-- Where every name has an id, the ids come in the order of the names. -/
theorem zipWith_filterMap_idOf? {db : Database} (list : List String)
    (h : (list.filterMap (db.idOf? d)).length = list.length) :
    ∀ e ∈ List.zipWith Entry.mk (list.filterMap (db.idOf? d)) list,
      e ∈ db.rows (.dictionary d) := by
  induction list with
  | nil => simp
  | cons n rest ih =>
    cases hn : db.idOf? d n with
    | none =>
      -- a name without an id makes the list of ids too short
      have hle := List.length_filterMap_le (db.idOf? d) rest
      simp only [List.filterMap_cons, hn, List.length_cons] at h
      omega
    | some i =>
      simp only [List.filterMap_cons, hn, List.length_cons, Nat.add_right_cancel_iff] at h
      simp only [List.filterMap_cons, hn, List.zipWith_cons_cons, List.mem_cons]
      rintro e (rfl | he)
      · exact Database.mem_rows_of_idOf? hn
      · exact ih h e he

/-- If every name asked for has an id, the ids are those of the names in order. -/
theorem findIdsByNames_known {list : List String} {ids : List Int}
    (hs : s.connection.transaction = none) (h : (s.findIdsByNames d list).1 = .ok ids)
    (hlength : ids.length = (firstsBy id [] list).length) :
    ∀ e ∈ List.zipWith Entry.mk ids (firstsBy id [] list), s.Knows d e := by
  obtain rfl := eq_of_findIdsByNames h
  rw [Connection.view_of_alone hs] at hlength ⊢
  exact zipWith_filterMap_idOf? _ hlength

theorem reads_listForOwner (k : EdgeKind) (owner : Int) (s : Call) :
    Reads s (s.listForOwner k owner).2 :=
  reads_observed (reads_during_ask _ _) s

/-- The entries at the far ends of edges are in the dictionary. -/
theorem listForOwner_known {k : EdgeKind} {owner : Int} {es : List Entry}
    (hs : s.connection.transaction = none) (h : (s.listForOwner k owner).1 = .ok es) :
    ∀ e ∈ es, s.Knows k.dictionary e := by
  have htold := connection_tell (.called .listAssociations) s
  rw [listForOwner, answer_observed, during_eq_ok_iff] at h
  have hrun := run_of_ask h
  rw [htold, Connection.view_of_alone hs] at hrun
  cases hjoined : joinedEntries k owner s.connection.committed with
  | error cause => simp [entriesOfOwner, Query.of, hjoined, Except.map] at hrun
  | ok joined =>
    obtain rfl : joined.mergeSort (fun a b => decide (a.name ≤ b.name)) = es := by
      simpa [entriesOfOwner, Query.of, hjoined, Except.map] using hrun
    exact fun e he => mem_of_joinedEntries hjoined (List.mem_mergeSort.1 he)

theorem reads_search (limits : SearchLimits) (c : Search.Criteria) (s : Call) :
    Reads s (s.search limits c).2 := by
  refine reads_observed (fun s => ?_) s
  have h : Reads s _ := reads_during_ask .search
    ((composeWithin limits c).rows s.connection.foldsCase) s
  unfold runSearch
  rcases hr : during .search (s.ask ((composeWithin limits c).rows s.connection.foldsCase)) with
    ⟨_ | rows, s'⟩
  · rw [hr] at h
    exact h
  · rw [hr] at h
    simp only
    cases Search.summaries rows with
    | error f => exact h
    | ok page => exact h.trans (reads_note _ s')

theorem reads_searchFor (limits : SearchLimits) (r : SearchRequest) (s : Call) :
    Reads s (s.searchFor limits r).2 := by
  have hids : ∀ list, Reads s (s.requestedIds list).2 := by
    intro list
    cases list with
    | nil => exact .refl s
    | cons name rest =>
      have h : Reads s _ := reads_findIdsByNames .specialization (name :: rest) s
      unfold requestedIds
      rcases hr : s.findIdsByNames .specialization (name :: rest) with ⟨_ | ids, s'⟩ <;>
        rw [hr] at h <;> simpa [hr] using h
  unfold searchFor
  cases r.validate with
  | error e => exact .refl s
  | ok lists =>
    have h := hids (normalizeNames r.specializations)
    rcases hr : s.requestedIds (normalizeNames r.specializations) with ⟨_ | _ | _ | ⟨id, ids⟩, s'⟩
    · rw [hr] at h
      exact h
    · rw [hr] at h
      exact h.trans (reads_search limits _ s')
    · rw [hr] at h
      exact h
    · rw [hr] at h
      exact h.trans (reads_search limits _ s')

end Call

end JobBoard
