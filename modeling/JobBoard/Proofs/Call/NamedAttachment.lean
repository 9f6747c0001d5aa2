import JobBoard.Proofs.Call.Undisturbed

/-!
# Attaching names adds exactly what is missing

Names are attached in two parts: each is resolved, with a commit of its own, and then all edges are
attached in one transaction. On success the dictionary has gained the names that were missing and
the join table the edges that were missing, and to do it again changes nothing. On an error no edge
was added, and the dictionary has gained names of a first part of the list. While others keep the
connection from committing nothing is added at all (`attachNames_of_blocked`). The main theorem is
`attachNames_adds_exactly`.
-/

set_option autoImplicit false

namespace JobBoard

open Observe Store

namespace Call

variable {s : Call} {d : Dictionary} {k : EdgeKind} {owner : Int} {list : List String}

/-! ## Connections that are kept from committing -/

theorem insertName_of_blocked (hs : s.connection.transaction = none)
    (hblocked : s.connection.commitBlocked = true) (d : Dictionary) (name : String) :
    (s.insertName d name).2.connection = s.connection := by
  rw [state_insertName]
  rcases change_alone_cases hs (.entry d) Option.isSome
      (insertEntry s.connection.ignoresRules d name) with
    ⟨-, hsame⟩ | ⟨-, -, -, -, hsame⟩ | ⟨hfree, -⟩
  · exact hsame
  · exact hsame
  · exact nomatch hfree.symm.trans hblocked

/-- Resolving names leaves a connection that cannot commit as it was: rows that are handed back are
lost. -/
theorem resolveAll_of_blocked (hs : s.connection.transaction = none)
    (hblocked : s.connection.commitBlocked = true) (d : Dictionary) (list : List String) :
    (s.resolveAll d list).2.connection = s.connection :=
  connection_resolveAll hs
    (fun name _ h => insertName_of_blocked (h ▸ hs) (h ▸ hblocked) d name) list

/-- Names are attached only on a connection that can commit. -/
theorem commits_of_attachNames (hs : s.connection.transaction = none)
    (hnames : normalizeNames list ≠ []) {ids : List Int}
    (h : (s.attachNames k owner list).1 = .ok ids) : s.connection.Commits := by
  have hleads := leads_resolveAll k.dictionary (normalizeNames list) s
  have hlength : ∀ ids', (s.resolveAll k.dictionary (normalizeNames list)).1 = .ok ids' →
      ids' ≠ [] := by
    intro ids' hids'
    rw [resolveAll, names.resolveAll_of_ne_nil k.dictionary hnames] at hids'
    rw [← List.length_pos_iff, names.length_of_resolveEach k.dictionary hids', List.length_pos_iff]
    exact hnames
  rw [attachNames_eq] at h
  rcases hr : s.resolveAll k.dictionary (normalizeNames list) with ⟨e | ids', s'⟩ <;>
    rw [hr] at h hleads hlength
  · cases h
  · have hsettles := associate_settles k owner (hlength ids' rfl) (hleads hs).1
    rcases hassociate : s'.associate k owner ids' with ⟨e | u, s''⟩
    · simp [hassociate] at h
    · rw [hassociate] at hsettles
      obtain ⟨-, ⟨⟨e, he⟩, -⟩ | ⟨-, hcommits, -⟩⟩ := hsettles
      · cases he
      · exact hcommits.of_settings (hleads hs).2.1.symm

/-- On a connection that cannot commit nothing is attached, and no name is added. -/
theorem attachNames_of_blocked (hs : s.connection.transaction = none)
    (hblocked : s.connection.commitBlocked = true) (k : EdgeKind) (owner : Int) {e : BoardError}
    (h : (s.attachNames k owner list).1 = .error e) :
    (s.attachNames k owner list).2.connection.committed = s.connection.committed := by
  have hnames : normalizeNames list ≠ [] := by
    intro hnil
    rw [attachNames_of_nil k owner hnil] at h
    exact nomatch h
  have hresolve := resolveAll_of_blocked hs hblocked k.dictionary (normalizeNames list)
  rw [attachNames_eq] at h ⊢
  rcases hr : s.resolveAll k.dictionary (normalizeNames list) with ⟨e | ids, s'⟩ <;>
    rw [hr] at h hresolve
  · exact congrArg Connection.committed hresolve
  · have hfailed := (associate_all_or_nothing k owner ids s').1
    rcases hassociate : s'.associate k owner ids with ⟨e' | u, s''⟩ <;>
      simp only [hassociate] at h hfailed ⊢
    · exact (hfailed e' rfl).1.trans (congrArg Connection.committed hresolve)
    · exact nomatch h

/-! ## Ids of different names -/

/-- Where ids are unique, different names have different ids. -/
theorem nodup_of_map_idOf? {db : Database} (hdb : db.Keyed) {names : List String} {ids : List Int}
    (hids : ids.map some = names.map (db.idOf? d)) (hnames : names.Nodup) : ids.Nodup := by
  have hsome : (ids.map some).Nodup := by
    rw [hids]
    refine List.Nodup.map_on ?_ hnames
    intro a ha b hb heq
    -- each name has an id, and the entry of an id has one name
    have hmem : db.idOf? d a ∈ ids.map some := hids ▸ List.mem_map_of_mem ha
    obtain ⟨id, -, hid⟩ := List.mem_map.1 hmem
    have hid' : db.idOf? d b = some id := heq ▸ hid.symm
    have hentry := List.inj_on_of_nodup_map (hdb.entryIds d)
      (Database.mem_rows_of_idOf? hid.symm) (Database.mem_rows_of_idOf? hid') rfl
    exact (Entry.mk.inj hentry).2
  exact hsome.of_map some

/-- Ids and names side by side are entries. -/
theorem mem_rows_of_map_idOf? {db : Database} {names : List String} {ids : List Int}
    (hids : ids.map some = names.map (db.idOf? d)) :
    ∀ e ∈ List.zipWith Entry.mk ids names, e ∈ db.rows (.dictionary d) ∧ e.id ∈ ids := by
  induction ids generalizing names with
  | nil => simp
  | cons id rest ih =>
    cases names with
    | nil => exact nomatch hids
    | cons name names =>
      obtain ⟨hid, hrest⟩ := List.cons.inj hids
      intro e he
      rcases List.mem_cons.1 he with rfl | he
      · exact ⟨Database.mem_rows_of_idOf? hid.symm, List.mem_cons_self⟩
      · exact ⟨(ih hrest e he).1, List.mem_cons_of_mem id (ih hrest e he).2⟩

/-! ## Doing it again -/

/-- Names that have ids, and edges to them, are attached once more without a change. -/
theorem attachNames_of_attached (hs : s.connection.Free) (hlive : s.signal.Live)
    (hdb : s.connection.committed.Regular s.connection.ignoresRules) {ids : List Int}
    (hids : ids.map some = (normalizeNames list).map (s.connection.committed.idOf? k.dictionary))
    (hedges : ∀ id ∈ ids, ⟨owner, id⟩ ∈ s.connection.committed.rows (.edges k)) :
    (s.attachNames k owner list).1 = .ok ids ∧
      (s.attachNames k owner list).2.connection.committed = s.connection.committed := by
  obtain ⟨x, hx, -⟩ := hdb.plain (.dictionary k.dictionary)
  obtain ⟨y, hy, -⟩ := hdb.plain (.edges k)
  have hcomes := comes_attachNames ⟨hlive, hs, hdb.plain⟩ hx hy owner list
  have hlinked : ∀ joins,
      linkAll s.connection.ignoresRules k joins owner ids y = .ok y := fun joins =>
    linkAll_of_mem (Database.rows_of_table hy ▸ hedges)
      fun hrules => Database.rows_of_table hy ▸ hdb.edgesPositive hrules k
  simp only [attaching, enlistAll_of_idOf? hx hids, hlinked, attachment,
    Database.setTable_of_table hx, Database.setTable_of_table hy] at hcomes
  exact ⟨hcomes.1, hcomes.2.tables⟩

/-- Names that are attached to an owner are listed. -/
theorem attached_of_attached (hs : s.connection.Free) (hlive : s.signal.Live)
    (hdb : s.connection.committed.Regular s.connection.ignoresRules) {names : List String}
    {ids : List Int}
    (hids : ids.map some = names.map (s.connection.committed.idOf? k.dictionary))
    (hedges : ∀ id ∈ ids, ⟨owner, id⟩ ∈ s.connection.committed.rows (.edges k)) :
    ∀ e ∈ List.zipWith Entry.mk ids names,
      ∃ es, (s.attached k owner).1 = .ok es ∧ e ∈ es := by
  obtain ⟨x, hx, -⟩ := hdb.plain (.edges k)
  obtain ⟨y, hy, -⟩ := hdb.plain (.dictionary k.dictionary)
  obtain ⟨es, hok, hall⟩ :=
    exists_listForOwner owner ⟨hlive, hs.readable, hs.unread⟩ hs.idle hx hy
  intro e he
  obtain ⟨hentry, hid⟩ := mem_rows_of_map_idOf? hids e he
  refine ⟨es, hok, hall e ?_ ?_⟩
  · exact Database.rows_of_table hy ▸ hentry
  · exact Database.rows_of_table hx ▸ hedges e.id hid

/-- The same call after one that succeeded, with a live token and nobody in the way. -/
theorem attachNames_again (hs : s.connection.transaction = none)
    (hdb : s.connection.committed.Consistent) {r : Answered Call (List Int)}
    (hr : s.attachNames k owner list = r) {ids : List Int} (hok : r.1 = .ok ids)
    (hids : ids.map some =
      (normalizeNames list).map (r.2.connection.committed.idOf? k.dictionary))
    (hedges : ∀ id ∈ ids, ⟨owner, id⟩ ∈ r.2.connection.committed.rows (.edges k)) {again : Call}
    (hagain : again.connection = r.2.connection.released) (hlive : again.signal.Live) :
    (again.attachNames k owner list).1 = .ok ids ∧
      (again.attachNames k owner list).2.connection.committed = r.2.connection.committed ∧
      ∀ e ∈ List.zipWith Entry.mk ids (normalizeNames list),
        ∃ es, (again.attached k owner).1 = .ok es ∧ e ∈ es := by
  have hcommitted : again.connection.committed = r.2.connection.committed := by
    rw [hagain]
    rfl
  by_cases hnames : normalizeNames list = []
  · rw [hnames] at hids ⊢
    obtain rfl : ids = [] := List.map_eq_nil_iff.1 hids
    rw [attachNames_of_nil k owner hnames]
    exact ⟨rfl, hcommitted, by simp⟩
  obtain ⟨hidle, hsettings, hsteps⟩ := leads_attachNames k owner list s hs
  rw [hr] at hidle hsettings hsteps
  have hcommits : s.connection.Commits := commits_of_attachNames hs hnames (hr ▸ hok)
  have hfree : again.connection.Free := by
    rw [hagain]
    exact (hcommits.of_settings hsettings).free_released hidle
  have hrules : again.connection.ignoresRules = s.connection.ignoresRules := by
    rw [hagain]
    show r.2.connection.ignoresRules = _
    exact Connection.ignoresRules_of_settings hsettings
  have hregular : again.connection.committed.Regular again.connection.ignoresRules := by
    rw [hcommitted, hrules]
    exact hsteps.regular hdb
  rw [← hcommitted] at hids hedges ⊢
  obtain ⟨hok', hsame⟩ := attachNames_of_attached hfree hlive hregular hids hedges
  exact ⟨hok', hsame, attached_of_attached hfree hlive hregular hids hedges⟩

/-! ## The whole call -/

/-- Attaching names to an owner, from the names to the edges. On success there is an id for each
name in normal form, all different, and they are the ids that the names have then; the dictionary
has gained those names that it did not have, and the join table the edges to the ids that it did not
have, and nothing else has changed. The same call again, with a live token and nobody in the way,
gives the same ids and changes nothing, and the names are listed as attached. On an error the
dictionary has gained those of the first names that it did not have, and nothing else has changed,
so no edge is written before every name is resolved. If all names are blank, nothing happens. -/
theorem attachNames_adds_exactly (k : EdgeKind) (owner : Int) (list : List String) (s : Call)
    (x : Table Edge) (y : Table Entry) (hs : s.connection.transaction = none)
    (hdb : s.connection.committed.Consistent)
    (hx : s.connection.committed.table (.edges k) = some x)
    (hy : s.connection.committed.table (.dictionary k.dictionary) = some y) :
    let names := normalizeNames list
    let r := s.attachNames k owner list
    let before := s.connection.committed
    let after := r.2.connection.committed
    let missing := fun name => (before.idOf? k.dictionary name).isNone
    (∀ ids, r.1 = .ok ids →
      ids.length = names.length ∧ ids.Nodup ∧
        ids.map some = names.map (after.idOf? k.dictionary) ∧
        (∃ added edges,
          after = (before.withEntries k.dictionary y added).withEdges k x (x.rows ++ edges) ∧
            added.map Entry.name = names.filter missing ∧ edges.Nodup ∧
            ∀ e, e ∈ edges ↔ e ∉ x.rows ∧ ∃ id ∈ ids, e = ⟨owner, id⟩) ∧
        ∀ again : Call, again.connection = r.2.connection.released → again.signal.Live →
          (again.attachNames k owner list).1 = .ok ids ∧
            (again.attachNames k owner list).2.connection.committed = after ∧
            ∀ e ∈ List.zipWith Entry.mk ids names,
              ∃ es, (again.attached k owner).1 = .ok es ∧ e ∈ es) ∧
      (∀ e, r.1 = .error e → (∀ k', after.table (.edges k') = before.table (.edges k')) ∧
        ∃ n added, after = before.withEntries k.dictionary y added ∧
          added.map Entry.name = (names.take n).filter missing) ∧
      (names = [] → r = (.ok [], s)) := by
  intro names r before after missing
  have hnodup : names.Nodup := nodup_normalizeNames list
  have hplain : x.triggers = [] := by
    obtain ⟨x', hx', hplain⟩ := hdb.tables (.edges k)
    obtain rfl := Option.some.inj (hx.symm.trans hx')
    exact hplain.noTriggers
  refine ⟨fun ids hok => ?_, fun e he => ?_, fun hnil => attachNames_of_nil k owner hnil s⟩
  · have hfree : names ≠ [] → s.connection.commitBlocked = false :=
      fun hnames => (commits_of_attachNames hs hnames hok).unblocked
    obtain ⟨e, -, -, he, -⟩ | ⟨ids', added, edges, hok', hids, hafter, hadded, hedges, hmem⟩ :=
      attachNames_cases owner list hs hfree hx hplain hy
    · exact nomatch hok.symm.trans he
    obtain rfl := Except.ok.inj (hok.symm.trans hok')
    rw [firstsBy_eq_missing hy hnodup] at hadded
    have hlength : ids.length = names.length := by
      simpa using congrArg List.length hids
    have hkeyed : after.Keyed := (leads_attachNames k owner list s hs).2.2.keyed hdb.toKeyed
    -- an edge to one of the ids was there before, or was added
    have hpresent : ∀ id ∈ ids, ⟨owner, id⟩ ∈ after.rows (.edges k) := by
      intro id hid
      rw [show after = _ from hafter, Database.rows_withEdges, List.mem_append]
      by_cases hold : (⟨owner, id⟩ : Edge) ∈ x.rows
      · exact .inl hold
      · exact .inr ((hmem _).2 ⟨hold, id, hid, rfl⟩)
    exact ⟨hlength, nodup_of_map_idOf? hkeyed hids hnodup, hids,
      ⟨added, edges, hafter, hadded, hedges, hmem⟩,
      fun again hagain hlive => attachNames_again hs hdb rfl hok hids hpresent hagain hlive⟩
  · have hgained : ∃ n added, after = before.withEntries k.dictionary y added ∧
        added.map Entry.name = (names.take n).filter missing := by
      cases hblocked : s.connection.commitBlocked with
      | true =>
        refine ⟨0, [], ?_, rfl⟩
        rw [Database.withEntries_nil hy]
        exact attachNames_of_blocked hs hblocked k owner he
      | false =>
        obtain ⟨-, n, added, -, hafter, hadded⟩ | ⟨ids, -, -, hok, -⟩ :=
          attachNames_cases owner list hs (fun _ => hblocked) hx hplain hy
        · rw [firstsBy_eq_missing hy (hnodup.sublist (List.take_sublist n names))] at hadded
          exact ⟨n, added, hafter, hadded⟩
        · exact nomatch he.symm.trans hok
    refine ⟨fun k' => ?_, hgained⟩
    obtain ⟨n, added, hafter, -⟩ := hgained
    rw [hafter]
    exact Database.table_withEntries_of_ne (by simp) added

/-- On the small store one name is known and one is new, and both are attached; doing it again gives
the same ids. If the token fires between two names, the first is added and no edge is. -/
theorem attachNames_adds_exactly_sample :
    let list := ["sql", " C  lang", "SQL"]
    let done := sample.attachNames .vacancySkill 1 list
    let again : Call := { connection := done.2.connection.released }
    let stopped := { sample with signal := { alarms := [⟨.check, 3, .cancelled⟩] } }.attachNames
      .vacancySkill 1 ["new", "sql"]
    done.1 = .ok [2, 3] ∧ (again.attachNames .vacancySkill 1 list).1 = .ok [2, 3] ∧
      (∃ es, (again.attached .vacancySkill 1).1 = .ok es ∧ ⟨3, "C lang"⟩ ∈ es) ∧
      (∃ e, stopped.1 = .error e) ∧
      stopped.2.connection.committed.table (.edges .vacancySkill) =
        Database.sample.table (.edges .vacancySkill) := by
  intro list done again stopped
  have hok : done.1 = .ok [2, 3] := by decide +kernel
  have hnames : normalizeNames list = ["sql", "C lang"] := by decide +kernel
  have herror : stopped.1 = .error (.internal (Activity.find .skill).text
      (some (.abandoned .cancelled))) := by
    decide +kernel
  have hlive : again.signal.Live := Cancel.Signal.live_of_quiet rfl rfl
  obtain ⟨-, -, -, -, hagain⟩ := (attachNames_adds_exactly .vacancySkill 1 list sample _ _ rfl
    Database.sample_consistent rfl rfl).1 [2, 3] hok
  obtain ⟨hok', -, hlisted⟩ := hagain again rfl hlive
  refine ⟨hok, hok', hlisted ⟨3, "C lang"⟩ ?_, ⟨_, herror⟩, ?_⟩
  · rw [hnames]
    decide
  · exact ((attachNames_adds_exactly .vacancySkill 1 _ _ _ _ rfl Database.sample_consistent rfl
      rfl).2.1 _ herror).1 .vacancySkill

end Call

end JobBoard
