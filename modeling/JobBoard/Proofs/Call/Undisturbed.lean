import JobBoard.Proofs.Call.Replacement
import JobBoard.Proofs.Call.Unobstructed

/-!
# Undisturbed calls as functions of the tables

Where the token of a call never fires, nobody else is at the file, and the tables are plain, the
call comes to what a function of the tables says: names are entered in a dictionary one after the
other (`enlistAll`), and edges in a join table (`linkAll`). So what a call comes to depends on the
tables that these functions are given, and on no other. The main theorems are `comes_resolveAll`,
`comes_associate`, `comes_attachNames` and `comes_replaceNames`.
-/

set_option autoImplicit false

namespace JobBoard

open Cancel Observe Store

/-! ## Dictionaries -/

/-- The id of a name in a dictionary, which the name enters if it is new and no rule forbids it. -/
def enlist (ignoreRules : Bool) (d : Dictionary) (name : String) (x : Table Entry) :
    Except BoardError Int × Table Entry :=
  match x.rows.find? (·.name == name) with
  | some e => (.ok e.id, x)
  | none =>
    if ignoreRules || isWritten name then
      (.ok (newEntry x name).id, { x with rows := x.rows ++ [newEntry x name] })
    else (.error (blankName d), x)

/-- The ids of names, each of which finds the dictionary as the one before left it, up to the first
that is forbidden. -/
def enlistAll (ignoreRules : Bool) (d : Dictionary) :
    List String → Table Entry → Except BoardError (List Int) × Table Entry
  | [], x => (.ok [], x)
  | name :: rest, x =>
    match enlist ignoreRules d name x with
    | (.error e, x) => (.error e, x)
    | (.ok id, x) =>
      match enlistAll ignoreRules d rest x with
      | (.error e, x) => (.error e, x)
      | (.ok ids, x) => (.ok (id :: ids), x)

/-- A name that has an id keeps it, and the dictionary stays as it is. -/
theorem enlist_of_idOf? {ignoreRules : Bool} {db : Database} {d : Dictionary} {x : Table Entry}
    (hx : db.table (.dictionary d) = some x) {name : String} {id : Int}
    (hid : db.idOf? d name = some id) : enlist ignoreRules d name x = (.ok id, x) := by
  rw [Database.idOf?, Database.rows_of_table hx, Option.map_eq_some_iff] at hid
  obtain ⟨e, hfound, rfl⟩ := hid
  rw [enlist, hfound]

theorem enlistAll_of_idOf? {ignoreRules : Bool} {db : Database} {d : Dictionary} {x : Table Entry}
    (hx : db.table (.dictionary d) = some x) {list : List String} {ids : List Int}
    (hids : ids.map some = list.map (db.idOf? d)) :
    enlistAll ignoreRules d list x = (.ok ids, x) := by
  induction list generalizing ids with
  | nil =>
    obtain rfl : ids = [] := List.map_eq_nil_iff.1 hids
    rfl
  | cons name rest ih =>
    cases ids with
    | nil => exact nomatch hids
    | cons id ids =>
      obtain ⟨hid, hrest⟩ := List.cons.inj hids
      simp only [enlistAll, enlist_of_idOf? hx hid.symm, ih hrest]

/-! ## Join tables -/

/-- A join table with one more edge, unless it is there; or why it is refused. Whether both ends of
an edge exist is given. -/
def link (ignoreRules : Bool) (k : EdgeKind) (joins : Edge → Bool) (e : Edge) (y : Table Edge) :
    Except Refusal (Table Edge) :=
  match forbidden? ignoreRules k e with
  | some cause => .error cause
  | none =>
    if e ∈ y.rows then .ok y
    else if joins e then .ok { y with rows := y.rows ++ [e] }
    else .error .danglingReference

/-- A join table with the edges from an owner to some entries, or why the first of them that is
refused is. -/
def linkAll (ignoreRules : Bool) (k : EdgeKind) (joins : Edge → Bool) (owner : Int) :
    List Int → Table Edge → Except Refusal (Table Edge)
  | [], y => .ok y
  | id :: rest, y =>
    match link ignoreRules k joins ⟨owner, id⟩ y with
    | .error cause => .error cause
    | .ok y => linkAll ignoreRules k joins owner rest y

section Link

variable {ignoreRules : Bool} {k : EdgeKind} {joins : Edge → Bool}

theorem forbidden?_not_isDuplicate {e : Edge} {cause : Refusal}
    (h : forbidden? ignoreRules k e = some cause) : cause.isDuplicate = false := by
  unfold forbidden? at h
  split at h
  · exact nomatch h
  · exact Relation.not_isDuplicate_of_brokenRule? h

/-- An edge that is there is let in once more, which changes nothing. -/
theorem link_of_mem {e : Edge} {y : Table Edge} (he : e ∈ y.rows)
    (hpositive : ignoreRules = false → 0 < e.owner ∧ 0 < e.entry) :
    link ignoreRules k joins e y = .ok y := by
  rw [link, forbidden?_eq_none_iff.2 hpositive]
  exact if_pos he

theorem linkAll_of_mem {owner : Int} {ids : List Int} {y : Table Edge}
    (hids : ∀ id ∈ ids, ⟨owner, id⟩ ∈ y.rows)
    (hpositive : ignoreRules = false → ∀ e ∈ y.rows, 0 < e.owner ∧ 0 < e.entry) :
    linkAll ignoreRules k joins owner ids y = .ok y := by
  induction ids with
  | nil => rfl
  | cons id rest ih =>
    have hid := hids id List.mem_cons_self
    rw [linkAll, link_of_mem hid fun hrules => hpositive hrules _ hid]
    exact ih fun id hid => hids id (List.mem_cons_of_mem _ hid)

theorem link_plain {e : Edge} {y y' : Table Edge} (h : link ignoreRules k joins e y = .ok y')
    (hy : y.Plain) : y'.Plain := by
  unfold link at h
  split at h
  · exact nomatch h
  · split at h
    · obtain rfl := Except.ok.inj h
      exact hy
    · split at h
      · obtain rfl := Except.ok.inj h
        exact ⟨hy.noTriggers, hy.strict⟩
      · exact nomatch h

theorem linkAll_plain {owner : Int} {ids : List Int} {y y' : Table Edge}
    (h : linkAll ignoreRules k joins owner ids y = .ok y') (hy : y.Plain) : y'.Plain := by
  induction ids generalizing y with
  | nil =>
    obtain rfl := Except.ok.inj h
    exact hy
  | cons id rest ih =>
    rw [linkAll] at h
    cases hfirst : link ignoreRules k joins ⟨owner, id⟩ y with
    | error cause => simp [hfirst] at h
    | ok y₁ =>
      rw [hfirst] at h
      exact ih h (link_plain hfirst hy)

end Link

/-- Whether both ends of an edge exist does not depend on the edges. -/
theorem Store.Database.joins_setTable_edges (db : Database) (k : EdgeKind) (l : EdgeKind)
    (y : Option (Table Edge)) : (db.setTable (.edges l) y).joins k = db.joins k := by
  funext e
  have hrows : ∀ t, t ≠ .edges l → (db.setTable (.edges l) y).rows t = db.rows t :=
    fun t ht => rows_setTable_of_ne (t := .edges l) db y ht
  rw [joins, joins, hasId_congr (hrows _ (ofOwner_ne_edges k.owner l)),
    hasId_congr (hrows (.dictionary k.dictionary) (by simp))]

namespace Call

variable {α : Type} {s s' : Call} {d : Dictionary} {k : EdgeKind} {x : Table Entry}
  {y : Table Edge} {db : Database}

/-! ## Undisturbed calls -/

/-- The token of the call never fires, nobody else is at the file, and the tables are plain. -/
structure Undisturbed (s : Call) : Prop where
  live : s.signal.Live
  free : s.connection.Free
  plain : s.connection.committed.Plain

theorem Undisturbed.unhindered (hs : s.Undisturbed) : s.Unhindered :=
  ⟨hs.live, hs.free.readable, hs.free.unread⟩

theorem Undisturbed.unobstructed (hs : s.Undisturbed) : s.Unobstructed :=
  ⟨hs.live, hs.free.unobstructed⟩

theorem sample_undisturbed : sample.Undisturbed where
  live := Cancel.Signal.live_of_quiet rfl rfl
  free := ⟨⟨rfl, rfl, rfl⟩, rfl, rfl, rfl⟩
  plain := Database.sample_consistent.tables

/-- A call ends with some tables and goes on undisturbed. -/
structure Arrives (s : Call) (db : Database) (s' : Call) : Prop where
  tables : s'.connection.committed = db
  settings : s'.connection.settings = s.connection.settings
  undisturbed : s'.Undisturbed

theorem Arrives.of_settings (hs : s.Undisturbed) (hdb : db.Plain)
    (htables : s'.connection.committed = db)
    (hsettings : s'.connection.settings = s.connection.settings)
    (hidle : s'.connection.transaction = none) (hlive : s'.signal.Live) : Arrives s db s' where
  tables := htables
  settings := hsettings
  undisturbed := ⟨hlive, hs.free.of_settings hsettings hidle, htables ▸ hdb⟩

/-- A call that leaves the connection as it was. -/
theorem Arrives.of_connection_eq (hs : s.Undisturbed) (h : s'.connection = s.connection)
    (hlive : s'.signal.Live) : Arrives s s.connection.committed s' :=
  .of_settings hs hs.plain (by rw [h]) (by rw [h]) (by rw [h]; exact hs.free.idle) hlive

theorem Arrives.trans {db' : Database} {s'' : Call} (h : Arrives s db s')
    (h' : Arrives s' db' s'') : Arrives s db' s'' where
  tables := h'.tables
  settings := h'.settings.trans h.settings
  undisturbed := h'.undisturbed

theorem Arrives.ignoresRules (h : Arrives s db s') :
    s'.connection.ignoresRules = s.connection.ignoresRules :=
  Connection.ignoresRules_of_settings h.settings

theorem arrives_tell (hs : s.Undisturbed) (e : Event) :
    Arrives s s.connection.committed (s.tell e) :=
  .of_connection_eq hs (connection_tell e s) (live_tell hs.live e)

theorem Reads.arrives (h : Reads s s') (hs : s.Undisturbed) :
    Arrives s s.connection.committed s' :=
  .of_connection_eq hs (h.alone hs.free.idle) (h.live hs.live)

/-- A statement that is answered leaves the tables that it comes to, if they are plain. -/
theorem change_done (hs : s.Undisturbed) {u : Update α} {e : Effect α} {a : α}
    (he : u s.connection.committed = .ok e) (ha : e.answer = .ok a) (hplain : e.tables.Plain)
    (p : Prepared) (handsBack : α → Bool) :
    (s.change p handsBack u).1 = .ok a ∧ Arrives s e.tables (s.change p handsBack u).2 := by
  obtain ⟨hanswer, hconnection, hlive⟩ := change_of_live hs.live p handsBack u
  have hran := Connection.write_of_free hs.free he handsBack
  rw [Connection.finishAlone, ha] at hran
  simp only [hplain.owes, hs.free.unblocked, Bool.false_eq_true, if_false] at hran
  obtain ⟨hwrite, hpublished⟩ := Prod.mk.inj hran
  rw [hpublished] at hconnection
  constructor
  · rw [hanswer, hwrite]
    rfl
  · refine .of_settings hs hplain ?_ ?_ ?_ hlive
    · rw [hconnection]
      rfl
    · rw [hconnection]
      rfl
    · rw [hconnection]
      exact hs.free.idle

/-- A call comes to an outcome and to some tables, and goes on undisturbed. -/
def Comes (s : Call) (r : Answered Call α) (outcome : Except BoardError α) (db : Database) :
    Prop :=
  r.1 = outcome ∧ Arrives s db r.2

/-! ## Names -/

theorem comes_resolve (hs : s.Undisturbed)
    (hx : s.connection.committed.table (.dictionary d) = some x) (name : String) :
    Comes s (s.resolve d name) (enlist s.connection.ignoresRules d name x).1
      (s.connection.committed.setTable (.dictionary d)
        (some (enlist s.connection.ignoresRules d name x).2)) := by
  cases hfound : x.rows.find? (·.name == name) with
  | some e =>
    have hid : s.connection.committed.idOf? d name = some e.id := by
      rw [Database.idOf?, Database.rows_of_table hx, hfound, Option.map_some]
    have hview := Connection.view_of_alone hs.free.idle
    obtain ⟨hok, hreads⟩ := resolve_of_idOf? hs.unhindered (hview.symm ▸ hx) (hview.symm ▸ hid)
    rw [enlist_of_idOf? hx hid, Database.setTable_of_table hx]
    exact ⟨hok, hreads.arrives hs⟩
  | none =>
    have hnew : ∀ e ∈ x.rows, e.name ≠ name := by
      intro e he hname
      exact List.find?_eq_none.1 hfound e he (by simpa using hname)
    have hview := Connection.view_of_alone hs.free.idle
    obtain ⟨hidle, hsettings, -⟩ := leads_resolve d name s hs.free.idle
    obtain ⟨hlive, hcases⟩ := hs.unobstructed.resolve (hview.symm ▸ hs.plain) (hview.symm ▸ hx) hnew
    rw [Connection.view_of_alone hidle, hview] at hcases
    rw [enlist, hfound]
    rcases hcases with ⟨hrules, hok, htables⟩ | ⟨hrules, herror, htables, -⟩
    · simp only [hrules, if_true]
      have hrow : (s.connection.committed.withRow (.dictionary d) x (newEntry x name)).Plain :=
        hs.plain.setTable ⟨(hs.plain.of_table hx).noTriggers, (hs.plain.of_table hx).strict⟩
      exact ⟨hok, .of_settings hs hrow htables hsettings hidle hlive⟩
    · simp only [hrules, Bool.false_eq_true, if_false]
      rw [Database.setTable_of_table hx]
      exact ⟨herror, .of_settings hs hs.plain htables hsettings hidle hlive⟩

/-- Names are entered in their dictionary one after the other. -/
theorem comes_resolveEach (hs : s.Undisturbed)
    (hx : s.connection.committed.table (.dictionary d) = some x) (list : List String) :
    Comes s (names.resolveEach d list s) (enlistAll s.connection.ignoresRules d list x).1
      (s.connection.committed.setTable (.dictionary d)
        (some (enlistAll s.connection.ignoresRules d list x).2)) := by
  induction list generalizing s x with
  | nil =>
    rw [enlistAll, Database.setTable_of_table hx]
    exact ⟨rfl, .of_connection_eq hs rfl hs.live⟩
  | cons name rest ih =>
    have hfirst := comes_resolve hs hx name
    rw [NameStore.resolveEach, enlistAll, show names.resolve d name s = s.resolve d name from rfl]
    generalize s.resolve d name = r at hfirst ⊢
    generalize enlist s.connection.ignoresRules d name x = p at hfirst ⊢
    rcases r with ⟨outcome, s'⟩
    rcases p with ⟨e | id, x'⟩
    · obtain ⟨rfl, harrives⟩ := hfirst
      exact ⟨rfl, harrives⟩
    · obtain ⟨rfl, harrives⟩ := hfirst
      have hx' : s'.connection.committed.table (.dictionary d) = some x' := by
        rw [harrives.tables]
        exact Database.table_setTable_self _ _ _
      have hrest := ih harrives.undisturbed hx'
      rw [harrives.tables, Database.setTable_setTable, harrives.ignoresRules] at hrest
      simp only
      generalize names.resolveEach d rest s' = r at hrest ⊢
      generalize enlistAll s.connection.ignoresRules d rest x' = p at hrest ⊢
      rcases r with ⟨outcome, s''⟩
      rcases p with ⟨e | ids, x''⟩
      · obtain ⟨rfl, harrives'⟩ := hrest
        exact ⟨rfl, harrives.trans harrives'⟩
      · obtain ⟨rfl, harrives'⟩ := hrest
        exact ⟨rfl, harrives.trans harrives'⟩

theorem comes_resolveAll (hs : s.Undisturbed)
    (hx : s.connection.committed.table (.dictionary d) = some x) (list : List String) :
    Comes s (s.resolveAll d list) (enlistAll s.connection.ignoresRules d list x).1
      (s.connection.committed.setTable (.dictionary d)
        (some (enlistAll s.connection.ignoresRules d list x).2)) := by
  cases list with
  | nil =>
    rw [enlistAll, Database.setTable_of_table hx]
    exact ⟨rfl, .of_connection_eq hs rfl hs.live⟩
  | cons name rest =>
    have htold := arrives_tell hs (.called .resolveAll)
    have heach := comes_resolveEach htold.undisturbed (htold.tables ▸ hx) (name :: rest)
    rw [htold.tables, htold.ignoresRules] at heach
    exact ⟨heach.1, htold.trans heach.2⟩

/-! ## Edges -/

/-- One edge inside a transaction: it is refused, and not for a clash; or it is there afterwards,
whether or not it was before. -/
theorem addOne_of_plain {t : Transaction} (hdb : db.Plain) (hy : db.table (.edges k) = some y)
    (hs : s.Within t db) (hwriting : t.writing = true)
    (hreadable : s.connection.readable = true) (hlive : s.signal.Live) (owner id : Int) :
    let r := s.change .edge (fun _ => false) (insertEdge s.connection.ignoresRules k ⟨owner, id⟩)
    s.SameOutside r.2 ∧ r.2.signal.Live ∧
      match link s.connection.ignoresRules k (db.joins k) ⟨owner, id⟩ y with
      | .error cause => r.1 = .error (.refused cause) ∧ cause.isDuplicate = false
      | .ok y' => (r.1 = .ok () ∨ ∃ e, r.1 = .error e ∧ e.writeFailure = .uniqueViolation) ∧
        ∃ t', r.2.Within t' (db.setTable (.edges k) (some y')) ∧ t'.writing = true := by
  intro r
  obtain ⟨work, hinsert⟩ := insertEdge_of_plain s.connection.ignoresRules hdb hy ⟨owner, id⟩
  rw [enter_edge_of_plain s.connection.ignoresRules (hdb.of_table hy)] at hinsert
  unfold link
  cases hforbidden : forbidden? s.connection.ignoresRules k ⟨owner, id⟩ with
  | some cause =>
    simp only [hforbidden] at hinsert
    obtain ⟨herror, hlive', houtside, -⟩ :=
      change_within hs hwriting hreadable hlive hinsert rfl .edge (fun _ => false)
    exact ⟨houtside, hlive', herror, forbidden?_not_isDuplicate hforbidden⟩
  | none =>
    simp only [hforbidden] at hinsert
    by_cases hmem : (⟨owner, id⟩ : Edge) ∈ y.rows
    · simp only [if_pos hmem] at hinsert ⊢
      obtain ⟨herror, hlive', houtside, hwithin⟩ :=
        change_within hs hwriting hreadable hlive hinsert rfl .edge (fun _ => false)
      rw [show ((Effect.refuse db _ : Effect Unit).working work).tables = db from rfl,
        ← Database.setTable_of_table hy] at hwithin
      refine ⟨houtside, hlive', .inr ⟨_, herror, ?_⟩, hwithin⟩
      exact (StoreError.writeFailure_refused_eq_unique_iff _).2 rfl
    · simp only [if_neg hmem] at hinsert ⊢
      cases hjoins : db.joins k ⟨owner, id⟩ with
      | true =>
        simp only [hjoins, if_true] at hinsert ⊢
        obtain ⟨hok, hlive', houtside, hwithin⟩ :=
          change_within hs hwriting hreadable hlive hinsert rfl .edge (fun _ => false)
        exact ⟨houtside, hlive', .inl hok, hwithin⟩
      | false =>
        simp only [hjoins, Bool.false_eq_true, if_false] at hinsert ⊢
        obtain ⟨herror, hlive', houtside, -⟩ :=
          change_within hs hwriting hreadable hlive hinsert rfl .edge (fun _ => false)
        exact ⟨houtside, hlive', herror, rfl⟩

/-- What the insertions of a transaction come to: the error of the first edge that is refused, or a
transaction that sees the join table with the edges. -/
def Linked (s : Call) (k : EdgeKind) (db : Database) (linked : Except Refusal (Table Edge))
    (r : Answered Call Nat) : Prop :=
  s.SameOutside r.2 ∧ r.2.signal.Live ∧
    match linked with
    | .error cause => r.1 = .error (.ofFailedWrite (Activity.add k).text (.refused cause))
    | .ok y => (∃ n, r.1 = .ok n) ∧
      ∃ t, r.2.Within t (db.setTable (.edges k) (some y)) ∧ t.writing = true

/-- The edges of a list inside a transaction, one after the other. -/
theorem addEach_of_plain {t : Transaction} (hdb : db.Plain) (hy : db.table (.edges k) = some y)
    (hs : s.Within t db) (hwriting : t.writing = true)
    (hreadable : s.connection.readable = true) (hlive : s.signal.Live) (owner : Int)
    (ids : List Int) (skipped : Nat) :
    Linked s k db (linkAll s.connection.ignoresRules k (db.joins k) owner ids y)
      (s.addEach k owner ids skipped) := by
  induction ids generalizing s t db y skipped with
  | nil =>
    refine ⟨rfl, hlive, ⟨skipped, rfl⟩, t, ?_, hwriting⟩
    rw [Database.setTable_of_table hy]
    exact hs
  | cons id rest ih =>
    obtain ⟨houtside, hlive', hone⟩ :=
      addOne_of_plain hdb hy hs hwriting hreadable hlive owner id
    have hreadable' := Connection.readable_of_settings houtside.settings
    have hrules := houtside.ignoresRules
    rw [addEach, linkAll]
    generalize s.change .edge (fun _ => false)
      (insertEdge s.connection.ignoresRules k ⟨owner, id⟩) = r
      at houtside hlive' hone hreadable' hrules ⊢
    rcases r with ⟨outcome, s'⟩
    cases hlink : link s.connection.ignoresRules k (db.joins k) ⟨owner, id⟩ y with
    | error cause =>
      simp only [hlink] at hone
      obtain ⟨rfl, hclash⟩ := hone
      have hne : (StoreError.refused cause).writeFailure ≠ .uniqueViolation := by
        rw [Ne, StoreError.writeFailure_refused_eq_unique_iff, hclash]
        decide
      simp only [if_neg hne]
      exact ⟨houtside, hlive', rfl⟩
    | ok y' =>
      simp only [hlink] at hone
      obtain ⟨hwent, t', hwithin, hwriting'⟩ := hone
      -- the rest goes on with the edge in the table
      have hdb' : (db.setTable (.edges k) (some y')).Plain :=
        hdb.setTable (t := .edges k) (link_plain hlink (hdb.of_table hy))
      have hrest : ∀ skipped, Linked s k db
          (linkAll s.connection.ignoresRules k (db.joins k) owner rest y')
          (s'.addEach k owner rest skipped) := by
        intro skipped
        have hdone := ih hdb' (Database.table_setTable_self db (.edges k) (some y')) hwithin
          hwriting' (hreadable'.trans hreadable) hlive' skipped
        rw [hrules, Database.joins_setTable_edges] at hdone
        simp only [Linked, Database.setTable_setTable] at hdone
        exact ⟨houtside.trans hdone.1, hdone.2⟩
      rcases hwent with rfl | ⟨e, rfl, hunique⟩
      · exact hrest skipped
      · simp only [if_pos hunique]
        exact hrest (skipped + 1)

/-- The same holds of everything before the commit. -/
theorem addAll_of_plain {t : Transaction} (hdb : db.Plain) (hy : db.table (.edges k) = some y)
    (hs : s.Within t db) (hwriting : t.writing = true)
    (hreadable : s.connection.readable = true) (hlive : s.signal.Live) (owner : Int)
    (ids : List Int) :
    Linked s k db (linkAll s.connection.ignoresRules k (db.joins k) owner ids y)
      (s.addAll k owner ids) := by
  have heach : Linked s k db (linkAll s.connection.ignoresRules k (db.joins k) owner ids y)
      ((s.prepare .edge).addEach k owner ids 0) :=
    addEach_of_plain (s := s.prepare .edge) hdb hy hs hwriting hreadable hlive owner ids 0
  obtain ⟨n, hview⟩ := hs.2
  rw [addAll, Connection.view_of_pinned hs.1 hview, hdb.edgeObstacle?]
  simp only
  generalize (s.prepare .edge).addEach k owner ids 0 = r at heach ⊢
  generalize linkAll s.connection.ignoresRules k (db.joins k) owner ids y = linked at heach ⊢
  rcases r with ⟨outcome, s'⟩
  obtain ⟨houtside, hlive', hcases⟩ := heach
  cases linked with
  | error cause =>
    obtain rfl : outcome = _ := hcases
    exact ⟨houtside, hlive', rfl⟩
  | ok y' =>
    obtain ⟨⟨m, hok⟩, t', hwithin, hwriting'⟩ := hcases
    obtain rfl : outcome = .ok m := hok
    have hchecked := (during_eq_ok_iff (.finish k) s'.check ()).2 (check_of_live hlive')
    have hstate := state_during (.finish k) s'.check
    have hconnection := connection_check s'
    have hlive'' := live_check hlive'
    rw [← hstate] at hconnection hlive''
    simp only
    generalize during (.finish k) s'.check = r at hchecked hconnection hlive'' ⊢
    rcases r with ⟨outcome, s''⟩
    obtain rfl : outcome = .ok () := hchecked
    refine ⟨houtside.trans (.of_connection_eq hconnection), hlive'', ⟨m, rfl⟩, t', ?_, hwriting'⟩
    exact ⟨(congrArg Connection.transaction hconnection).trans hwithin.1, hwithin.2⟩

/-- The join table that attaching edges leaves, and the answer: none of the edges if one is refused.
-/
def attachment (k : EdgeKind) (y : Table Edge) :
    Except Refusal (Table Edge) → Except BoardError Unit × Table Edge
  | .error cause => (.error (.ofFailedWrite (Activity.add k).text (.refused cause)), y)
  | .ok y' => (.ok (), y')

theorem live_undoEdges (h : s.signal.Live) : s.undoEdges.signal.Live := by
  unfold undoEdges
  split
  · exact h
  · rename_i cause c _
    exact live_tell (s := { s with connection := c }) h _

theorem live_commitEdges (h : s.signal.Live) (requested skipped : Nat) :
    (s.commitEdges k requested skipped).2.signal.Live := by
  unfold commitEdges
  split <;> exact h

theorem comes_insertEdges (hs : s.Undisturbed)
    (hy : s.connection.committed.table (.edges k) = some y) (owner : Int) (ids : List Int) :
    let linked := linkAll s.connection.ignoresRules k (s.connection.committed.joins k) owner ids y
    Comes s (s.insertEdges k owner ids) (attachment k y linked).1
      (s.connection.committed.setTable (.edges k) (some (attachment k y linked).2)) := by
  intro linked
  let begun : Transaction :=
    { view := some (s.connection.committed, s.connection.commits)
      writing := !s.connection.readOnly }
  have hbegun : begun.writing = true := by simp [begun, hs.free.writable]
  have hbegin := Connection.begin_of_unlocked hs.free.idle hs.free.readable hs.free.unread
    hs.free.unlocked
  rw [insertEdges_of_begun k owner (check_of_live hs.live) hbegin]
  generalize hstart : ({ s.check.2 with connection := s.connection.locked } : Call) = s₁
  have hwithin : s₁.Within begun s.connection.committed := hstart ▸ ⟨rfl, _, rfl⟩
  have hsame : s.SameOutside s₁ := hstart ▸ rfl
  have hlive₁ : s₁.signal.Live := hstart ▸ live_check hs.live
  have hall := addAll_of_plain hs.plain hy hwithin hbegun
    ((Connection.readable_of_settings hsame.settings).trans hs.free.readable) hlive₁ owner ids
  rw [hsame.ignoresRules] at hall
  generalize s₁.addAll k owner ids = r at hall ⊢
  rcases r with ⟨outcome, s₂⟩
  obtain ⟨houtside, hlive, hcases⟩ := hall
  rw [show linkAll s.connection.ignoresRules k (s.connection.committed.joins k) owner ids y =
    linked from rfl] at hcases
  cases hlinked : linked with
  | error cause =>
    simp only [hlinked] at hcases
    subst hcases
    obtain ⟨hundone, hnone⟩ := undoEdges_outside s₂
    have hleft := (hsame.trans houtside).trans hundone
    rw [attachment, Database.setTable_of_table hy]
    exact ⟨rfl,
      .of_settings hs hs.plain hleft.committed hleft.settings hnone (live_undoEdges hlive)⟩
  | ok y' =>
    simp only [hlinked] at hcases
    obtain ⟨⟨m, rfl⟩, t', hwithin', hwriting'⟩ := hcases
    have hplain : (s.connection.committed.setTable (.edges k) (some y')).Plain :=
      hs.plain.setTable (t := .edges k) (linkAll_plain hlinked (hs.plain.of_table hy))
    obtain ⟨n, hview⟩ := hwithin'.2
    have hsettings := (hsame.trans houtside).settings
    have hcommit : s₂.connection.commit.1 = .ok () :=
      Connection.commit_of_writing hwithin'.1 hview hwriting' hplain.owes
        ((Connection.commitBlocked_of_settings hsettings).trans hs.free.unblocked)
    obtain ⟨hnone, ⟨⟨e, he⟩, -⟩ | ⟨hdone, -, hsettings', hcommitted⟩⟩ :=
      commitEdges_cases k ids.length m hwithin' hwriting'
    · rw [commitEdges] at he
      generalize s₂.connection.commit = r at hcommit he
      rcases r with ⟨outcome, c⟩
      obtain rfl : outcome = .ok () := hcommit
      cases he
    · exact ⟨hdone, .of_settings hs hplain hcommitted (hsettings'.trans hsettings) hnone
        (live_commitEdges hlive _ _)⟩

/-- An operation is announced first and reports its error last; neither changes what it comes to. -/
theorem comes_observed {op : Operation} {run : Call → Answered Call α}
    {f : Except BoardError α} (hs : s.Undisturbed)
    (h : Comes (s.tell (.called op)) (run (s.tell (.called op))) f db) :
    Comes s (observed tell op run s) f db := by
  have htold := arrives_tell hs (.called op)
  unfold observed
  generalize run (s.tell (.called op)) = r at h ⊢
  rcases r with ⟨e | a, s'⟩
  · have hreported := arrives_tell h.2.undisturbed (.failed op e)
    exact ⟨h.1, (htold.trans h.2).trans (h.2.tables ▸ hreported)⟩
  · exact ⟨h.1, htold.trans h.2⟩

/-- Edges are attached one after the other, or none of them. -/
theorem comes_associate (hs : s.Undisturbed)
    (hy : s.connection.committed.table (.edges k) = some y) (owner : Int) (ids : List Int) :
    let linked := linkAll s.connection.ignoresRules k (s.connection.committed.joins k) owner ids y
    Comes s (s.associate k owner ids) (attachment k y linked).1
      (s.connection.committed.setTable (.edges k) (some (attachment k y linked).2)) := by
  intro linked
  by_cases hids : ids = []
  · subst hids
    rw [show linked = .ok y from rfl, attachment, Database.setTable_of_table hy]
    exact ⟨rfl, .of_connection_eq hs rfl hs.live⟩
  · rw [associate_of_ne_nil k owner hids]
    have htold := arrives_tell hs (.called .associate)
    have hinsert := comes_insertEdges htold.undisturbed (htold.tables ▸ hy) owner ids
    rw [htold.tables, htold.ignoresRules] at hinsert
    exact comes_observed hs hinsert

/-- The edges of an owner go. -/
theorem comes_clearOwner (hs : s.Undisturbed)
    (hy : s.connection.committed.table (.edges k) = some y) (owner : Int) :
    Comes s (s.clearOwner k owner) (.ok (y.rows.filter fun e => e.owner == owner).length)
      (s.connection.committed.setTable (.edges k)
        (some { y with rows := y.rows.filter fun e => !(e.owner == owner) })) := by
  have htold := arrives_tell hs (.called .clearAssociations)
  refine comes_observed hs ?_
  obtain ⟨e, he, ha, htables⟩ := clearEdges_of_plain hs.plain hy owner
  have hplain : e.tables.Plain := by
    rw [htables]
    exact hs.plain.setTable (t := .edges k)
      ⟨(hs.plain.of_table hy).noTriggers, (hs.plain.of_table hy).strict⟩
  obtain ⟨hok, harrives⟩ := change_done htold.undisturbed (htold.tables ▸ he) ha hplain
    .once (fun _ => false)
  rw [htables] at harrives
  refine ⟨(during_eq_ok_iff _ _ _).2 hok, ?_⟩
  rw [state_during]
  exact harrives

/-! ## Names and edges -/

/-- What attaching names to an owner makes of a dictionary and a join table. -/
def attaching (ignoreRules : Bool) (k : EdgeKind) (owner : Int) (list : List String)
    (owned : Int → Bool) (x : Table Entry) (y : Table Edge) :
    Except BoardError (List Int) × Table Entry × Table Edge :=
  match enlistAll ignoreRules k.dictionary (normalizeNames list) x with
  | (.error e, x) => (.error e, x, y)
  | (.ok ids, x) =>
    let joins (e : Edge) : Bool := owned e.owner && (x.rows.map Entry.id).contains e.entry
    let r := attachment k y (linkAll ignoreRules k joins owner ids y)
    (r.1.map fun _ => ids, x, r.2)

theorem comes_attachNames (hs : s.Undisturbed)
    (hx : s.connection.committed.table (.dictionary k.dictionary) = some x)
    (hy : s.connection.committed.table (.edges k) = some y) (owner : Int) (list : List String) :
    let p := attaching s.connection.ignoresRules k owner list
      (s.connection.committed.hasId (.ofOwner k.owner)) x y
    Comes s (s.attachNames k owner list) p.1
      ((s.connection.committed.setTable (.dictionary k.dictionary) (some p.2.1)).setTable
        (.edges k) (some p.2.2)) := by
  have hresolve := comes_resolveAll hs hx (normalizeNames list)
  have hkept : ∀ x', (s.connection.committed.setTable (.dictionary k.dictionary) (some x')).table
      (.edges k) = some y := by
    intro x'
    rw [Database.table_setTable_of_ne _ _ (by simp), hy]
  rw [attachNames_eq]
  simp only [attaching]
  generalize s.resolveAll k.dictionary (normalizeNames list) = r at hresolve ⊢
  generalize enlistAll s.connection.ignoresRules k.dictionary (normalizeNames list) x = p
    at hresolve ⊢
  rcases r with ⟨outcome, s'⟩
  rcases p with ⟨e | ids, x'⟩
  · obtain ⟨rfl, harrives⟩ := hresolve
    refine ⟨rfl, ?_⟩
    simp only
    rw [Database.setTable_of_table (t := .edges k) (hkept x')]
    exact harrives
  · obtain rfl : outcome = .ok ids := hresolve.1
    have harrives : Arrives s _ s' := hresolve.2
    have hjoins : (s.connection.committed.setTable (.dictionary k.dictionary) (some x')).joins k =
        fun e => s.connection.committed.hasId (.ofOwner k.owner) e.owner &&
          (x'.rows.map Entry.id).contains e.entry := by
      funext e
      rw [Database.joins, Database.hasId_congr (Database.rows_setTable_of_ne _ _
        (Database.ofOwner_ne_dictionary k.owner k.dictionary))]
      simp [Database.hasId, Database.ids, Database.rows_of_table, Database.table_setTable_self]
    have hassociate := comes_associate harrives.undisturbed (harrives.tables ▸ hkept x') owner ids
    simp only [harrives.ignoresRules, harrives.tables, hjoins] at hassociate
    simp only
    generalize s'.associate k owner ids = r at hassociate ⊢
    generalize attachment k y (linkAll _ _ _ _ _ _) = p at hassociate ⊢
    rcases r with ⟨outcome, s''⟩
    rcases p with ⟨e | u, y'⟩
    · obtain ⟨rfl, harrives'⟩ := hassociate
      exact ⟨rfl, harrives.trans harrives'⟩
    · obtain ⟨rfl, harrives'⟩ := hassociate
      exact ⟨rfl, harrives.trans harrives'⟩

end Call

end JobBoard
