import JobBoard.Proofs.Call.Resolution

/-!
# Replacing the names of an owner

An owner is cleared, names are resolved, and edges are attached, each step with a commit of its own.
What each step can leave is known (`clearOwner_cases`, `attachNames_cases`), so whatever stops the
call, old and new edges of the owner never stand together. The main theorem is
`replaceNames_never_mixes`.
-/

set_option autoImplicit false

namespace JobBoard

open Observe Store

/-! ## Tables -/

namespace Store.Database

/-- The tables with other rows in a join table. -/
def withEdges (db : Database) (k : EdgeKind) (x : Table Edge) (rows : List Edge) : Database :=
  db.setTable (.edges k) (some { x with rows })

/-- The tables with more entries in a dictionary. -/
def withEntries (db : Database) (d : Dictionary) (y : Table Entry) (added : List Entry) :
    Database :=
  db.setTable (.dictionary d) (some { y with rows := y.rows ++ added })

/-- The edges of one owner. -/
def edgesOf (db : Database) (k : EdgeKind) (owner : Int) : List Edge :=
  (db.rows (.edges k)).filter fun e => e.owner == owner

variable {db : Database} {k : EdgeKind} {x : Table Edge} {y : Table Entry} {d : Dictionary}

theorem withEdges_self (hx : db.table (.edges k) = some x) : db.withEdges k x x.rows = db :=
  setTable_of_table hx

theorem withEntries_nil (hy : db.table (.dictionary d) = some y) : db.withEntries d y [] = db := by
  rw [withEntries, List.append_nil]
  exact setTable_of_table hy

theorem tables_removeEdges (hx : db.table (.edges k) = some x) (test : Edge → Bool) :
    (db.removeEdges k test).tables = db.withEdges k x (x.rows.filter (!test ·)) := by
  show db.setRows (.edges k) ((db.rows (.edges k)).filter (!test ·)) = _
  rw [setRows, hx, rows_of_table hx]
  rfl

theorem withEdges_withEntries (db : Database) (k : EdgeKind) (x : Table Edge) (rows : List Edge)
    (d : Dictionary) (y : Table Entry) (added : List Entry) :
    (db.withEdges k x rows).withEntries d y added =
      (db.withEntries d y added).withEdges k x rows :=
  setTable_comm (t := .edges k) (u := .dictionary d) db (by simp) _ _

theorem table_withEdges_of_ne {t : TableName} (h : t ≠ .edges k) (rows : List Edge) :
    (db.withEdges k x rows).table t = db.table t :=
  table_setTable_of_ne db _ h

theorem table_withEntries_of_ne {t : TableName} (h : t ≠ .dictionary d) (added : List Entry) :
    (db.withEntries d y added).table t = db.table t :=
  table_setTable_of_ne db _ h

theorem rows_withEdges (rows : List Edge) : (db.withEdges k x rows).rows (.edges k) = rows :=
  rows_of_table (table_setTable_self db _ _)

theorem withEdges_withEdges (rows rows' : List Edge) :
    (db.withEdges k x rows).withEdges k { x with rows } rows' = db.withEdges k x rows' :=
  setTable_setTable db _ _ _

/-- Tables with other edges and more entries have those, and are otherwise what they were. -/
theorem withEdges_withEntries_frame (db : Database) (k : EdgeKind) (x : Table Edge)
    (rows : List Edge) (y : Table Entry) (added : List Entry) :
    let after := (db.withEdges k x rows).withEntries k.dictionary y added
    after.table (.dictionary k.dictionary) = some { y with rows := y.rows ++ added } ∧
      (∀ owner, after.edgesOf k owner = rows.filter fun e => e.owner == owner) ∧
      ∀ t, t ≠ .edges k → t ≠ .dictionary k.dictionary → after.table t = db.table t := by
  intro after
  refine ⟨table_setTable_self _ _ _, ?_, ?_⟩
  · intro owner
    rw [show after = _ from withEdges_withEntries db k x rows _ y added, edgesOf, rows_withEdges]
  · intro t hedges hentries
    exact (table_withEntries_of_ne hentries added).trans (table_withEdges_of_ne hedges rows)

theorem idOf?_withEdges (rows : List Edge) (name : String) :
    (db.withEdges k x rows).idOf? d name = db.idOf? d name := by
  rw [idOf?, idOf?, withEdges, rows_setTable_of_ne db _ (by simp)]

end Store.Database

namespace Call

variable {s : Call} {k : EdgeKind} {owner : Int} {list : List String} {x : Table Edge}
  {y : Table Entry}

/-! ## Clearing -/

/-- The edges of all owners but one. -/
def othersOf (owner : Int) (edges : List Edge) : List Edge :=
  edges.filter fun e => !(e.owner == owner)

/-- How many edges of an owner a join table has. -/
def edgeCount (x : Table Edge) (owner : Int) : Nat :=
  (x.rows.filter fun e => e.owner == owner).length

/-- The steps in which the edges of an owner are removed. -/
def clearingSteps (x : Table Edge) (owner : Int) : Nat :=
  (clearingWork x owner (edgeCount x owner)).total (edgeCount x owner)

/-- The tables are as they were, or the owner is cleared. That is told, unless a look falls on the
last step of the removal, and the token has fired by then. -/
theorem clearOwner_cases (k : EdgeKind) (owner : Int) (hs : s.connection.transaction = none) :
    let r := s.clearOwner k owner
    ((∃ e, r.1 = .error e) ∧ r.2.connection.committed = s.connection.committed) ∨
      (s.connection.commitBlocked = false ∧
        ∃ x, s.connection.committed.table (.edges k) = some x ∧
          r.2.connection.committed =
            s.connection.committed.withEdges k x (othersOf owner x.rows) ∧
          (r.1 = .ok (edgeCount x owner) ∨
            lookSteps ∣ clearingSteps x owner ∧ ∃ cause, cause.isCancellation = true ∧
              r.1 = .error (.internal (Activity.clearEdges k).text (some cause)))) := by
  intro r
  have htold := connection_tell (.called .clearAssociations) s
  have hanswer := answer_observed .clearAssociations
    (fun s => during (.clearEdges k) (s.change .once (fun _ => false) (clearEdges k owner))) s
  have hstate := connection_observed .clearAssociations
    (fun s => during (.clearEdges k) (s.change .once (fun _ => false) (clearEdges k owner))) s
  generalize s.tell (.called .clearAssociations) = s₀ at htold hanswer hstate
  rw [state_during] at hstate
  rw [show r.1 = _ from hanswer, show r.2.connection = _ from hstate, ← htold]
  rcases change_alone_cases (s := s₀) (htold ▸ hs) .once (fun _ => false) (clearEdges k owner) with
    ⟨⟨e, he⟩, hsame⟩ | ⟨-, -, -, hback, -⟩ | ⟨hfree, e, n, he, ha, hpublished, hend⟩
  · exact .inl ⟨⟨_, during_of_error _ he⟩, congrArg Connection.committed hsame⟩
  · cases hback
  obtain ⟨x, hx, rfl⟩ := clearEdges_eq he
  have hrows : (s₀.connection.committed.removeEdges k fun e => e.owner == owner).rows =
      edgeCount x owner := by
    show ((s₀.connection.committed.rows (.edges k)).filter _).length = _
    rw [Database.rows_of_table hx]
    rfl
  refine .inr ⟨hfree, x, hx, ?_, ?_⟩
  · rw [hpublished]
    exact Database.tables_removeEdges hx _
  · rw [hrows] at hend ha
    obtain rfl : edgeCount x owner = n := Except.ok.inj ha
    refine hend.imp (during_eq_ok_iff _ _ _).2 ?_
    rintro ⟨hsettled, cause, hcause, hcancelled⟩
    exact ⟨(Work.exists_look_settled_of_after_eq_one rfl).1 hsettled, cause, hcancelled,
      during_of_error _ hcause⟩

/-- An owner is not cleared while something keeps the connection from writing. -/
theorem connection_clearOwner_of_obstacle (hs : s.connection.transaction = none) {cause : Refusal}
    (h : s.connection.writeObstacle? = some cause) (k : EdgeKind) (owner : Int) :
    (s.clearOwner k owner).2.connection = s.connection := by
  have htold := connection_tell (.called .clearAssociations) s
  rw [clearOwner, connection_observed, state_during]
  exact (connection_change_of_obstacle (htold ▸ hs) (htold ▸ h) _ _ _).trans htold

/-! ## Attaching -/

/-- Edges are attached outside a transaction to a table without triggers, or the tables are as they
were. -/
theorem associate_cases (owner : Int) {ids : List Int} (hids : ids ≠ [])
    (hs : s.connection.transaction = none)
    (hx : s.connection.committed.table (.edges k) = some x) (hplain : x.triggers = []) :
    let r := s.associate k owner ids
    ((∃ e, r.1 = .error e) ∧ r.2.connection.committed = s.connection.committed) ∨
      (r.1 = .ok () ∧ ∃ edges,
        r.2.connection.committed = s.connection.committed.withEdges k x (x.rows ++ edges) ∧
          edges.Nodup ∧ ∀ e, e ∈ edges ↔ e ∉ x.rows ∧ ∃ id ∈ ids, e = ⟨owner, id⟩) := by
  intro r
  obtain ⟨-, ⟨herror, houtside⟩ | ⟨hok, -, -, n, htried⟩⟩ := associate_settles k owner hids hs
  · exact .inl ⟨herror, houtside.committed⟩
  · exact .inr ⟨hok, htried.added hx hplain⟩

theorem attachNames_of_nil (k : EdgeKind) (owner : Int) (hnames : normalizeNames list = [])
    (s : Call) : s.attachNames k owner list = (.ok [], s) := by
  rw [attachNames, hnames]

/-- Attaching names resolves them and attaches their ids; of no names nothing comes either way. -/
theorem attachNames_eq (k : EdgeKind) (owner : Int) (list : List String) (s : Call) :
    s.attachNames k owner list =
      match s.resolveAll k.dictionary (normalizeNames list) with
      | (.error e, s) => (.error e, s)
      | (.ok ids, s) =>
        match s.associate k owner ids with
        | (.error e, s) => (.error e, s)
        | (.ok (), s) => (.ok ids, s) := by
  unfold attachNames
  split
  · rename_i hnil
    rw [hnil]
    rfl
  · rfl

/-- Names are attached to an owner outside a transaction. On an error the join table is as it was,
and the dictionary has gained what was missing of the first names. On success it has gained all that
was missing, and the edges to the ids of the names are added. -/
theorem attachNames_cases (owner : Int) (list : List String)
    (hs : s.connection.transaction = none)
    (hfree : normalizeNames list ≠ [] → s.connection.commitBlocked = false)
    (hx : s.connection.committed.table (.edges k) = some x) (hplain : x.triggers = [])
    (hy : s.connection.committed.table (.dictionary k.dictionary) = some y) :
    let r := s.attachNames k owner list
    let names := normalizeNames list
    let before := s.connection.committed
    let after := r.2.connection.committed
    (∃ e n added, r.1 = .error e ∧ after = before.withEntries k.dictionary y added ∧
        added.map Entry.name = firstsBy id (y.rows.map Entry.name) (names.take n)) ∨
      ∃ ids added edges, r.1 = .ok ids ∧ ids.map some = names.map (after.idOf? k.dictionary) ∧
        after = (before.withEntries k.dictionary y added).withEdges k x (x.rows ++ edges) ∧
        added.map Entry.name = firstsBy id (y.rows.map Entry.name) names ∧
        edges.Nodup ∧ ∀ e, e ∈ edges ↔ e ∉ x.rows ∧ ∃ id ∈ ids, e = ⟨owner, id⟩ := by
  intro r names before after
  by_cases hnames : names = []
  · have hr : r = (.ok [], s) := attachNames_of_nil k owner hnames s
    refine .inr ⟨[], [], [], ?_, ?_, ?_, ?_, List.nodup_nil, ?_⟩
    · rw [hr]
    · rw [hnames]
      rfl
    · rw [Database.withEntries_nil hy, List.append_nil, Database.withEdges_self hx]
      show r.2.connection.committed = _
      rw [hr]
    · rw [hnames]
      rfl
    · simp
  have hresolve := resolveAll_resolves k.dictionary names hs (hfree hnames)
  have hleads := leads_resolveAll k.dictionary names s
  have hr : r = _ := attachNames_eq k owner list s
  rcases hall : s.resolveAll k.dictionary names with ⟨outcome, s'⟩
  rw [show s.resolveAll k.dictionary (normalizeNames list) = _ from hall] at hr
  rw [hall] at hresolve hleads
  obtain ⟨ids, hids, hresolved⟩ | ⟨e, n, ids, he, -, hresolved⟩ := hresolve
  · obtain rfl : outcome = .ok ids := hids
    obtain ⟨added, hadded, hmissing⟩ := hresolved.added hy
    have hne : ids ≠ [] := by
      rintro rfl
      exact hnames (List.map_eq_nil_iff.1 hresolved.map_idOf?.symm)
    have hx' : s'.connection.committed.table (.edges k) = some x := by
      rw [show s'.connection.committed = _ from hadded]
      exact (Database.table_withEntries_of_ne (by simp) added).trans hx
    have hcases := associate_cases owner hne (hleads hs).1 hx' hplain
    rcases hassociate : s'.associate k owner ids with ⟨outcome, s''⟩
    rw [hassociate] at hcases
    obtain ⟨⟨e, he⟩, hsame⟩ | ⟨hok, edges, hedges, hnodup, hmem⟩ := hcases
    · obtain rfl : outcome = .error e := he
      simp only [hassociate] at hr
      refine .inl ⟨e, names.length, added, by rw [hr], ?_, by rw [List.take_length, hmissing]⟩
      show r.2.connection.committed = _
      rw [hr]
      exact hsame.trans hadded
    · obtain rfl : outcome = .ok () := hok
      simp only [hassociate] at hr
      have hafter : after = s'.connection.committed.withEdges k x (x.rows ++ edges) := by
        show r.2.connection.committed = _
        rw [hr]
        exact hedges
      refine .inr ⟨ids, added, edges, by rw [hr], ?_, ?_, hmissing, hnodup, hmem⟩
      · rw [hresolved.map_idOf?, hafter]
        apply List.map_congr_left
        intro name _
        exact (Database.idOf?_withEdges _ name).symm
      · rw [hafter, show s'.connection.committed = _ from hadded]
        rfl
  · obtain rfl : outcome = .error e := he
    obtain ⟨added, hadded, hmissing⟩ := hresolved.added hy
    refine .inl ⟨e, n, added, by rw [hr], ?_, hmissing⟩
    show r.2.connection.committed = _
    rw [hr]
    exact hadded

/-! ## Replacing -/

theorem filter_othersOf_append {edges : List Edge} (hown : ∀ e ∈ edges, e.owner = owner)
    (rows : List Edge) :
    (othersOf owner rows ++ edges).filter (fun e => e.owner == owner) = edges := by
  have hothers : (othersOf owner rows).filter (fun e => e.owner == owner) = [] := by
    rw [othersOf, List.filter_filter, List.filter_eq_nil_iff]
    simp
  rw [List.filter_append, hothers, List.nil_append, List.filter_eq_self]
  intro e he
  exact beq_iff_eq.2 (hown e he)

theorem filter_othersOf_append_of_ne {edges : List Edge} (hown : ∀ e ∈ edges, e.owner = owner)
    {other : Int} (h : other ≠ owner) (rows : List Edge) :
    (othersOf owner rows ++ edges).filter (fun e => e.owner == other) =
      rows.filter fun e => e.owner == other := by
  have hnone : edges.filter (fun e => e.owner == other) = [] := by
    rw [List.filter_eq_nil_iff]
    intro e he heq
    exact h ((beq_iff_eq.1 heq).symm.trans (hown e he))
  rw [List.filter_append, hnone, List.append_nil, othersOf, List.filter_filter]
  apply List.filter_congr
  intro e _
  cases he : e.owner == other with
  | false => rfl
  | true =>
    have hne : e.owner ≠ owner := fun heq => h ((beq_iff_eq.1 he).symm.trans heq)
    simpa using hne

/-- The names of an owner are replaced outside a transaction. On an error clearing failed and the
tables are as they were, or the owner has no edge left and the dictionary has gained what was
missing of the first names. On success the edges of the owner are those to the ids of the names. -/
theorem replaceNames_cases (owner : Int) (list : List String)
    (hs : s.connection.transaction = none)
    (hx : s.connection.committed.table (.edges k) = some x) (hplain : x.triggers = [])
    (hy : s.connection.committed.table (.dictionary k.dictionary) = some y) :
    let r := s.replaceNames k owner list
    let names := normalizeNames list
    let before := s.connection.committed
    let after := r.2.connection.committed
    (∃ e, r.1 = .error e ∧ (s.clearOwner k owner).1 = .error e ∧ after = before) ∨
      (∃ e n added, r.1 = .error e ∧
        after = (before.withEdges k x (othersOf owner x.rows)).withEntries k.dictionary y added ∧
        added.map Entry.name = firstsBy id (y.rows.map Entry.name) (names.take n)) ∨
      ∃ ids added edges, r.1 = .ok ids ∧ ids.map some = names.map (after.idOf? k.dictionary) ∧
        after = (before.withEdges k x (othersOf owner x.rows ++ edges)).withEntries
          k.dictionary y added ∧
        added.map Entry.name = firstsBy id (y.rows.map Entry.name) names ∧
        edges.Nodup ∧ ∀ e, e ∈ edges ↔ ∃ id ∈ ids, e = ⟨owner, id⟩ := by
  intro r names before after
  have hleads := leads_clearOwner k owner s
  have hclear := clearOwner_cases k owner hs
  rcases hcleared : s.clearOwner k owner with ⟨outcome, s'⟩
  rw [hcleared] at hleads hclear
  have hfailed : ∀ e, outcome = .error e → r = (.error e, s') := by
    rintro e rfl
    show s.replaceNames k owner list = _
    rw [replaceNames, hcleared]
  obtain ⟨⟨e, he⟩, hsame⟩ | ⟨hfree, y', hy', hcommitted, hend⟩ := hclear
  · have hr := hfailed e he
    refine .inl ⟨e, by rw [hr], he, ?_⟩
    show r.2.connection.committed = _
    rw [hr]
    exact hsame
  -- from here on the owner has no edges
  obtain rfl : x = y' := Option.some.inj (hx.symm.trans hy')
  replace hcommitted : s'.connection.committed = before.withEdges k x (othersOf owner x.rows) :=
    hcommitted
  have hy' : s'.connection.committed.table (.dictionary k.dictionary) = some y := by
    rw [hcommitted]
    exact (Database.table_withEdges_of_ne (by simp) _).trans hy
  rcases hend with hok | ⟨-, cause, -, he⟩
  swap
  · have hr := hfailed _ he
    refine .inr (.inl ⟨_, 0, [], by rw [hr], ?_, rfl⟩)
    rw [← hcommitted, Database.withEntries_nil hy']
    show r.2.connection.committed = _
    rw [hr]
  obtain rfl : outcome = .ok _ := hok
  have hr : r = s'.attachNames k owner list := by
    show s.replaceNames k owner list = _
    rw [replaceNames, hcleared]
  have hx' : s'.connection.committed.table (.edges k) =
      some { x with rows := othersOf owner x.rows } := by
    rw [hcommitted]
    exact Database.table_setTable_self before _ _
  have hattach := attachNames_cases owner list (hleads hs).1 (fun _ => hleads.free hs hfree) hx'
    hplain hy'
  rw [← hr, hcommitted] at hattach
  obtain ⟨e, n, added, he, hafter, hmissing⟩ |
    ⟨ids, added, edges, hok, hids, hafter, hmissing, hnodup, hmem⟩ := hattach
  · exact .inr (.inl ⟨e, n, added, he, hafter, hmissing⟩)
  · refine .inr (.inr ⟨ids, added, edges, hok, hids, ?_, hmissing, hnodup, ?_⟩)
    · rw [← Database.withEdges_withEntries, Database.withEdges_withEdges] at hafter
      exact hafter
    · intro e
      rw [hmem]
      constructor
      · exact fun h => h.2
      -- no edge was there before: all of the owner's were removed
      · rintro ⟨id, hid, rfl⟩
        refine ⟨?_, id, hid, rfl⟩
        simp [othersOf]

/-- Replacing the names of an owner never mixes old and new edges. On success its edges are those to
the ids that the names have, each once. On an error clearing failed and nothing has changed, or the
owner has no edge. In every case the dictionary has gained no more than the missing ones of the
first names, the edges of all other owners are what they were, and so are all other tables. -/
theorem replaceNames_never_mixes (k : EdgeKind) (owner : Int) (list : List String) (s : Call)
    (x : Table Edge) (y : Table Entry) (hs : s.connection.transaction = none)
    (hx : s.connection.committed.table (.edges k) = some x) (hplain : x.triggers = [])
    (hy : s.connection.committed.table (.dictionary k.dictionary) = some y) :
    let r := s.replaceNames k owner list
    let names := normalizeNames list
    let before := s.connection.committed
    let after := r.2.connection.committed
    (∀ ids, r.1 = .ok ids → ids.map some = names.map (after.idOf? k.dictionary) ∧
        (after.edgesOf k owner).Nodup ∧
        ∀ e, e ∈ after.edgesOf k owner ↔ ∃ id ∈ ids, e = ⟨owner, id⟩) ∧
      (∀ e, r.1 = .error e →
        (s.clearOwner k owner).1 = .error e ∧ after = before ∨ after.edgesOf k owner = []) ∧
      (∃ n added,
        after.table (.dictionary k.dictionary) = some { y with rows := y.rows ++ added } ∧
        added.map Entry.name =
          (names.take n).filter fun name => (before.idOf? k.dictionary name).isNone) ∧
      (∀ other, other ≠ owner → after.edgesOf k other = before.edgesOf k other) ∧
      ∀ t, t ≠ .edges k → t ≠ .dictionary k.dictionary → after.table t = before.table t := by
  intro r names before after
  have hmissing : ∀ n, firstsBy id (y.rows.map Entry.name) (names.take n) =
      (names.take n).filter fun name => (before.idOf? k.dictionary name).isNone :=
    fun n => firstsBy_eq_missing hy ((nodup_normalizeNames list).sublist (List.take_sublist n _))
  have hothers : ∀ edges : List Edge, (∀ e ∈ edges, e.owner = owner) → ∀ other, other ≠ owner →
      (othersOf owner x.rows ++ edges).filter (fun e => e.owner == other) =
        before.edgesOf k other := by
    intro edges hown other hother
    rw [filter_othersOf_append_of_ne hown hother, Database.edgesOf, Database.rows_of_table hx]
  obtain ⟨e, he, hcleared, hsame⟩ | ⟨e, n, added, he, hafter, hadded⟩ |
    ⟨ids, added, edges, hok, hids, hafter, hadded, hnodup, hmem⟩ :=
      replaceNames_cases owner list hs hx hplain hy
  · replace hsame : after = before := hsame
    refine ⟨?_, ?_, ⟨0, [], ?_, rfl⟩, ?_, ?_⟩
    · intro ids hok
      cases he.symm.trans hok
    · intro e' he'
      obtain rfl : e = e' := Except.error.inj (he.symm.trans he')
      exact .inl ⟨hcleared, hsame⟩
    · rw [hsame, List.append_nil]
      exact hy
    · intro other _
      rw [hsame]
    · intro t _ _
      rw [hsame]
  · obtain ⟨hentries, hof, htables⟩ :=
      before.withEdges_withEntries_frame k x (othersOf owner x.rows ++ []) y added
    rw [List.append_nil, show _ = after from hafter.symm] at hentries hof htables
    refine ⟨?_, ?_, ⟨n, added, hentries, hadded.trans (hmissing n)⟩, ?_, htables⟩
    · intro ids hok
      cases he.symm.trans hok
    · intro _ _
      rw [hof, ← List.append_nil (othersOf owner x.rows), filter_othersOf_append (by simp)]
      exact .inr rfl
    · intro other hother
      rw [hof, ← List.append_nil (othersOf owner x.rows), hothers [] (by simp) other hother]
  · obtain ⟨hentries, hof, htables⟩ :=
      before.withEdges_withEntries_frame k x (othersOf owner x.rows ++ edges) y added
    rw [show _ = after from hafter.symm] at hentries hof htables
    have hown : ∀ e ∈ edges, e.owner = owner := by
      intro e he
      obtain ⟨id, -, rfl⟩ := (hmem e).1 he
      rfl
    refine ⟨?_, ?_, ⟨names.length, added, hentries, ?_⟩, ?_, htables⟩
    · intro ids' hok'
      obtain rfl : ids = ids' := Except.ok.inj (hok.symm.trans hok')
      rw [hof, filter_othersOf_append hown]
      exact ⟨hids, hnodup, hmem⟩
    · intro e he
      cases he.symm.trans hok
    · rw [← hmissing, List.take_length]
      exact hadded
    · intro other hother
      rw [hof, hothers edges hown other hother]

/-- On the small store an owner with one edge gets two others; and if the token fires between two
names, it keeps no edge next to a new one. -/
theorem replaceNames_never_mixes_sample :
    let replaced := sample.replaceNames .vacancySkill 1 ["sql", " C  lang", "SQL"]
    let stopped := { sample with signal := { alarms := [⟨.check, 4, .cancelled⟩] } }.replaceNames
      .vacancySkill 1 ["new", "sql"]
    (∀ e, e ∈ replaced.2.connection.committed.edgesOf .vacancySkill 1 ↔
        ∃ id ∈ [2, 3], e = ⟨1, id⟩) ∧
      (stopped.2.connection.committed = Database.sample ∨
        stopped.2.connection.committed.edgesOf .vacancySkill 1 = []) := by
  intro replaced stopped
  constructor
  · have hok : replaced.1 = .ok [2, 3] := by decide +kernel
    exact ((replaceNames_never_mixes .vacancySkill 1 _ sample _ _ rfl rfl rfl rfl).1 [2, 3] hok).2.2
  · have herror : stopped.1 = .error (.internal (Activity.find .skill).text
        (some (.abandoned .cancelled))) := by
      decide +kernel
    exact ((replaceNames_never_mixes .vacancySkill 1 _ _ _ _ rfl rfl rfl rfl).2.1 _ herror).imp_left
      And.right

end Call

end JobBoard
