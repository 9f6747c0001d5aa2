import JobBoard.Proofs.Call.Acceptance
import JobBoard.Proofs.Call.DictionaryReads

/-!
# Listing and clearing what is attached

On plain tables that conform to the schema what is attached to an owner is one entry for each of his
edges, and no two have the same name (`perm_map_id_attached`, `pairwise_attached`). It is what the
list of the owner tells (`Undisturbed.answer_listForOwner`), and how much of it there is what
clearing tells (`Undisturbed.clears`); attached again, it is listed as before
(`Undisturbed.restores`). The main theorem is `listing_and_clearing_agree`.
-/

set_option autoImplicit false

namespace JobBoard

open Observe Store Text

/-! ## What is attached -/

namespace Store.Database

variable {db db' : Database} {k : EdgeKind} {owner : Int}

/-- Where ids are unique, an edge leads to one entry. -/
theorem map_id_flatMap_filter {rows : List Entry} (hids : (rows.map Entry.id).Nodup)
    {edges : List Edge} (hedges : ∀ e ∈ edges, e.entry ∈ rows.map Entry.id) :
    (edges.flatMap fun e => rows.filter fun l => l.id == e.entry).map Entry.id =
      edges.map Edge.entry := by
  have hone : ∀ e ∈ edges, (rows.filter fun l => l.id == e.entry).map Entry.id = [e.entry] := by
    intro e he
    have hfilter := List.filter_map (p := (· == e.entry)) (f := Entry.id) (l := rows)
    rw [List.filter_beq, List.count_eq_one_of_mem hids (hedges e he)] at hfilter
    exact hfilter.symm
  rw [List.map_flatMap, List.flatMap_congr hone, List.map_eq_flatMap]

theorem joins_of_mem (h : db.Conforms) (hplain : db.Plain) {e : Edge}
    (he : e ∈ db.rows (.edges k)) : db.joins k e = true := by
  obtain ⟨y, hy, -⟩ := h (.edges k)
  rw [rows_of_table hy] at he
  exact ((unfit?_eq_none_iff e).1 (h.fit hplain hy e he)).2

theorem nodup_edges (h : db.Conforms) (k : EdgeKind) : (db.rows (.edges k)).Nodup := by
  have hunique : (db.rows (.edges k)).Pairwise fun a b => (id a == id b) = false :=
    h.linked.unique (t := .edges k) (u := ⟨false, [k.ownerColumn, k.entryColumn], (· == ·)⟩)
      fun _ => List.mem_singleton_self _
  rw [← List.map_id (db.rows (.edges k))]
  exact nodup_of_unique hunique

/-- The edges of one owner lead to different entries. -/
theorem nodup_map_entry_edgesOf (h : (db.rows (.edges k)).Nodup) (owner : Int) :
    ((db.edgesOf k owner).map Edge.entry).Nodup := by
  refine (h.filter _).map_on ?_
  rintro ⟨o, id⟩ he ⟨o', id'⟩ he' hentry
  have ho : o = owner := by simpa using (List.mem_filter.1 he).2
  have ho' : o' = owner := by simpa using (List.mem_filter.1 he').2
  obtain rfl : o = o' := ho.trans ho'.symm
  obtain rfl : id = id' := hentry
  rfl

theorem mem_map_entry_edgesOf (db : Database) (k : EdgeKind) (owner id : Int) :
    id ∈ (db.edgesOf k owner).map Edge.entry ↔ ⟨owner, id⟩ ∈ db.rows (.edges k) := by
  rw [List.mem_map]
  constructor
  · rintro ⟨⟨o, id⟩, he, rfl⟩
    obtain ⟨hmem, ho⟩ := List.mem_filter.1 he
    obtain rfl : o = owner := by simpa using ho
    exact hmem
  · intro he
    exact ⟨_, List.mem_filter.2 ⟨he, beq_self_eq_true owner⟩, rfl⟩

/-- What is attached to an owner is an entry for every edge of his. -/
theorem perm_map_id_attached (h : db.Conforms) (hplain : db.Plain) (k : EdgeKind) (owner : Int) :
    ((db.attached k owner).map Entry.id).Perm ((db.edgesOf k owner).map Edge.entry) := by
  have hfound : ∀ e ∈ db.edgesOf k owner,
      e.entry ∈ (db.rows (.dictionary k.dictionary)).map Entry.id := by
    intro e he
    have hjoins := joins_of_mem h hplain (List.mem_of_mem_filter he)
    rw [joins, Bool.and_eq_true, hasId_dictionary] at hjoins
    simpa using hjoins.2
  rw [← map_id_flatMap_filter (h.linked.nodup_entryIds k.dictionary) hfound]
  exact (List.mergeSort_perm _ _).map Entry.id

theorem mem_rows_of_mem_attached {e : Entry} (he : e ∈ db.attached k owner) :
    e ∈ db.rows (.dictionary k.dictionary) := by
  rw [attached, List.mem_mergeSort] at he
  obtain ⟨_, _, he⟩ := List.mem_flatMap.1 he
  exact List.mem_of_mem_filter he

/-- What is attached has different names. -/
theorem nodup_names_attached (h : db.Conforms) (hplain : db.Plain) (k : EdgeKind) (owner : Int) :
    ((db.attached k owner).map Entry.name).Nodup := by
  have hids : ((db.attached k owner).map Entry.id).Nodup :=
    (perm_map_id_attached h hplain k owner).nodup_iff.2
      (nodup_map_entry_edgesOf (nodup_edges h k) owner)
  refine (hids.of_map Entry.id).map_on ?_
  intro a ha b hb hname
  exact List.inj_on_of_nodup_map (h.linked.nodup_entryNames k.dictionary)
    (mem_rows_of_mem_attached ha) (mem_rows_of_mem_attached hb) hname

theorem pairwise_attached (h : db.Conforms) (hplain : db.Plain) (k : EdgeKind) (owner : Int) :
    (db.attached k owner).Pairwise fun a b => utf8 a.name < utf8 b.name := by
  have hnames := nodup_names_attached h hplain k owner
  rw [attached, ((List.mergeSort_perm _ _).map Entry.name).nodup_iff] at hnames
  refine (pairwise_lt_mergeSort (by simp) hnames).imp ?_
  intro a b hab
  exact (utf8_lt_utf8_iff a.name b.name).2 hab

/-- What is attached to an owner depends on his edges and on the dictionary. -/
theorem attached_congr (h : db.Conforms) (hplain : db.Plain)
    (hentries : db'.rows (.dictionary k.dictionary) = db.rows (.dictionary k.dictionary))
    (hedges : (db'.edgesOf k owner).Perm (db.edgesOf k owner)) :
    db'.attached k owner = db.attached k owner := by
  have hnames := nodup_names_attached h hplain k owner
  rw [attached, ((List.mergeSort_perm _ _).map Entry.name).nodup_iff] at hnames
  rw [attached, attached, hentries]
  exact mergeSort_eq_of_perm (by simp) hnames (hedges.flatMap_right _)

/-! ## Tables with an owner cleared -/

/-- The tables without the edges of an owner in one join table. -/
def withoutEdges (db : Database) (k : EdgeKind) (owner : Int) (y : Table Edge) : Database :=
  db.withEdges k y (Call.othersOf owner y.rows)

variable {y : Table Edge}

theorem table_withoutEdges_self (db : Database) (k : EdgeKind) (owner : Int) (y : Table Edge) :
    (db.withoutEdges k owner y).table (.edges k) =
      some { y with rows := Call.othersOf owner y.rows } :=
  table_setTable_self db (.edges k) _

theorem edgesOf_withoutEdges_self (db : Database) (k : EdgeKind) (owner : Int) (y : Table Edge) :
    (db.withoutEdges k owner y).edgesOf k owner = [] := by
  rw [edgesOf, withoutEdges, rows_withEdges, Call.othersOf, List.filter_filter,
    List.filter_eq_nil_iff]
  simp

theorem edgesOf_withoutEdges_of_ne (hy : db.table (.edges k) = some y) {k' : EdgeKind} {o : Int}
    (h : (k', o) ≠ (k, owner)) :
    (db.withoutEdges k owner y).edgesOf k' o = db.edgesOf k' o := by
  by_cases hk : k' = k
  · subst hk
    have ho : o ≠ owner := fun heq => h (congrArg (Prod.mk k') heq)
    rw [edgesOf, edgesOf, withoutEdges, rows_withEdges, rows_of_table hy]
    have hnone : ∀ e ∈ ([] : List Edge), e.owner = owner := by simp
    have hothers := Call.filter_othersOf_append_of_ne hnone ho y.rows
    rwa [List.append_nil] at hothers
  · rw [edgesOf, edgesOf, withoutEdges, withEdges,
      rows_setTable_of_ne (t := .edges k) (u := .edges k') db _ (by simpa using hk)]

theorem rows_dictionary_withoutEdges (db : Database) (k : EdgeKind) (owner : Int)
    (y : Table Edge) (d : Dictionary) :
    (db.withoutEdges k owner y).rows (.dictionary d) = db.rows (.dictionary d) :=
  rows_setTable_of_ne (t := .edges k) db _ (by simp)

theorem attached_withoutEdges_self (db : Database) (k : EdgeKind) (owner : Int) (y : Table Edge) :
    (db.withoutEdges k owner y).attached k owner = [] := by
  show (((db.withoutEdges k owner y).edgesOf k owner).flatMap _).mergeSort _ = []
  rw [edgesOf_withoutEdges_self, List.flatMap_nil, List.mergeSort_nil]

/-- Clearing an owner in one table leaves what is attached to others, or in other tables. -/
theorem attached_withoutEdges_of_ne (hy : db.table (.edges k) = some y) {k' : EdgeKind} {o : Int}
    (h : (k', o) ≠ (k, owner)) :
    (db.withoutEdges k owner y).attached k' o = db.attached k' o := by
  have hedges := edgesOf_withoutEdges_of_ne hy h
  have hentries := rows_dictionary_withoutEdges db k owner y k'.dictionary
  unfold edgesOf at hedges
  rw [attached, attached, hedges, hentries]

end Store.Database

namespace Call

variable {s : Call} {k : EdgeKind} {owner : Int}

/-! ## The calls -/

theorem Undisturbed.answer_listForOwner (hs : s.Undisturbed) (k : EdgeKind) (owner : Int) :
    (s.listForOwner k owner).1 = .ok (s.connection.committed.attached k owner) := by
  have hview := Connection.view_of_alone hs.free.idle
  obtain ⟨x, hx, -⟩ := hs.plain (.edges k)
  obtain ⟨y, hy, -⟩ := hs.plain (.dictionary k.dictionary)
  rw [← hview] at hx hy ⊢
  exact Call.answer_listForOwner owner hs.unhindered hx hy

/-- An owner is cleared, and the answer is how many entries were attached. -/
theorem Undisturbed.clears (hs : s.Undisturbed) (hdb : s.connection.committed.Conforms)
    {y : Table Edge} (hy : s.connection.committed.table (.edges k) = some y) (owner : Int) :
    Comes s (s.clearOwner k owner) (.ok (s.connection.committed.attached k owner).length)
      (s.connection.committed.withoutEdges k owner y) := by
  have hlength := (Database.perm_map_id_attached hdb hs.plain k owner).length_eq
  rw [List.length_map, List.length_map, Database.edgesOf, Database.rows_of_table hy] at hlength
  rw [hlength]
  exact comes_clearOwner hs hy owner

/-- Once the entries that were attached to an owner are attached again, they are listed as before.
-/
theorem Undisturbed.restores (hs : s.Undisturbed) (hdb : s.connection.committed.Conforms)
    {y : Table Edge} (hy : s.connection.committed.table (.edges k) = some y) {c : Call}
    (hc : Arrives s (s.connection.committed.withoutEdges k owner y) c) {ids : List Int}
    (hids : ∀ id, id ∈ ids ↔ id ∈ (s.connection.committed.attached k owner).map Entry.id) :
    (c.associate k owner ids).1 = .ok () ∧
      ((c.associate k owner ids).2.listForOwner k owner).1 =
        .ok (s.connection.committed.attached k owner) := by
  have hedge : ∀ id, id ∈ ids ↔ ⟨owner, id⟩ ∈ y.rows := by
    intro id
    rw [hids, (Database.perm_map_id_attached hdb hs.plain k owner).mem_iff,
      Database.mem_map_entry_edgesOf, Database.rows_of_table hy]
  have hfit : ∀ id ∈ ids, unfit? k (s.connection.committed.joins k) ⟨owner, id⟩ = none :=
    fun id hid => hdb.fit hs.plain hy _ ((hedge id).1 hid)
  have hnodup : y.rows.Nodup := Database.rows_of_table hy ▸ Database.nodup_edges hdb k
  obtain ⟨y', hlinked, hnodup', hrows⟩ := linkAll_of_unfit?
    (y := { y with rows := othersOf owner y.rows }) c.connection.ignoresRules hfit
    (hnodup.filter _)
  have hy' : c.connection.committed.table (.edges k) =
      some { y with rows := othersOf owner y.rows } := by
    rw [hc.tables]
    exact Database.table_withoutEdges_self _ k owner y
  have hcomes := comes_associate hc.undisturbed hy' owner ids
  have hjoins : c.connection.committed.joins k = s.connection.committed.joins k := by
    rw [hc.tables]
    exact Database.joins_setTable_edges _ k k _
  simp only [hjoins, hlinked, attachment] at hcomes
  refine ⟨hcomes.1, ?_⟩
  have harrives : Arrives c _ (c.associate k owner ids).2 := hcomes.2
  rw [harrives.undisturbed.answer_listForOwner, harrives.tables]
  congr 1
  apply Database.attached_congr hdb hs.plain
  · rw [Database.rows_setTable_of_ne (t := .edges k) _ _ (by simp), hc.tables,
      Database.rows_dictionary_withoutEdges]
  · rw [Database.edgesOf, Database.edgesOf, Database.rows_of_table hy,
      Database.rows_of_table (Database.table_setTable_self _ (.edges k) (some y'))]
    rw [List.perm_ext_iff_of_nodup (hnodup'.filter _) (hnodup.filter _)]
    rintro ⟨o, id⟩
    rw [List.mem_filter, List.mem_filter]
    refine and_congr_left fun ho => ?_
    obtain rfl : o = owner := by simpa using ho
    rw [hrows, ← hedge]
    simp [othersOf]

/-- In plain tables that conform to the schema, with nothing in the way of a call, an owner's list
has one entry of the dictionary for each of his edges, in the order of the bytes of the names.
Clearing the owner answers the length of the list; then his list is empty, there is nothing left to
be cleared, and all other lists are as they were. Attaching the entries of the list again brings the
list back. And whatever stops a call that clears an owner outside a transaction, if it fails then
the tables are as they were, with one exception: on a connection that nobody is in the way of, where
a look falls on the last step of the removal, a cancellation can be told of an owner who is cleared.
-/
theorem listing_and_clearing_agree (k : EdgeKind) (owner : Int) :
    (∀ s : Call, s.Undisturbed → s.connection.committed.Conforms →
      let db := s.connection.committed
      let cleared := s.clearOwner k owner
      ∃ es, (s.listForOwner k owner).1 = .ok es ∧
        (es.map Entry.id).Perm ((db.edgesOf k owner).map Edge.entry) ∧
        (∀ e ∈ es, e ∈ db.rows (.dictionary k.dictionary)) ∧
        (es.Pairwise fun a b => utf8 a.name < utf8 b.name) ∧
        cleared.1 = .ok es.length ∧
        (cleared.2.listForOwner k owner).1 = .ok [] ∧
        (cleared.2.clearOwner k owner).1 = .ok 0 ∧
        (∀ k' o, (k', o) ≠ (k, owner) →
          (cleared.2.listForOwner k' o).1 = (s.listForOwner k' o).1) ∧
        ∀ ids, (∀ id, id ∈ ids ↔ id ∈ es.map Entry.id) →
          let restored := cleared.2.associate k owner ids
          restored.1 = .ok () ∧ (restored.2.listForOwner k owner).1 = .ok es) ∧
    ∀ s : Call, s.connection.transaction = none → ∀ e, (s.clearOwner k owner).1 = .error e →
      let before := s.connection.committed
      let after := (s.clearOwner k owner).2.connection.committed
      after = before ∨
        s.connection.writeObstacle? = none ∧ s.connection.commitBlocked = false ∧
          ∃ y cause, before.table (.edges k) = some y ∧ lookSteps ∣ clearingSteps y owner ∧
            cause.isCancellation = true ∧
            e = .internal (Activity.clearEdges k).text (some cause) ∧
            after = before.withoutEdges k owner y := by
  refine ⟨?_, ?_⟩
  · intro s hs hdb db cleared
    obtain ⟨y, hy, -⟩ := hs.plain (.edges k)
    obtain ⟨hanswer, hcleared⟩ := hs.clears hdb hy owner
    have hafter : cleared.2.connection.committed = db.withoutEdges k owner y := hcleared.tables
    refine ⟨db.attached k owner, hs.answer_listForOwner k owner,
      Database.perm_map_id_attached hdb hs.plain k owner,
      fun _ => Database.mem_rows_of_mem_attached,
      Database.pairwise_attached hdb hs.plain k owner, hanswer, ?_, ?_, ?_, ?_⟩
    · rw [hcleared.undisturbed.answer_listForOwner, hafter, Database.attached_withoutEdges_self]
    · have hy' := Database.table_withoutEdges_self db k owner y
      rw [(comes_clearOwner hcleared.undisturbed (hafter ▸ hy') owner).1]
      have hnone := Database.edgesOf_withoutEdges_self db k owner y
      rw [Database.edgesOf, Database.rows_of_table hy'] at hnone
      rw [hnone]
      rfl
    · intro k' o hne
      rw [hcleared.undisturbed.answer_listForOwner, hs.answer_listForOwner, hafter,
        Database.attached_withoutEdges_of_ne hy hne]
    · exact fun ids hids => hs.restores hdb hy hcleared hids
  · intro s hidle e he before after
    rcases clearOwner_cases k owner hidle with
      ⟨-, hsame⟩ | ⟨hfree, y, hy, hgone, hok | ⟨hlook, cause, hcancelled, herror⟩⟩
    · exact .inl hsame
    · cases he.symm.trans hok
    · cases hobstacle : s.connection.writeObstacle? with
      | some cause =>
        have hsame := connection_clearOwner_of_obstacle hidle hobstacle k owner
        exact .inl (congrArg Connection.committed hsame)
      | none =>
        obtain rfl := Except.error.inj (he.symm.trans herror)
        exact .inr ⟨rfl, hfree, y, cause, hy, hlook, hcancelled, rfl, hgone⟩

/-- On the small store one skill is attached to the vacancy, is cleared and attached again. While
another connection writes, the vacancy cannot be cleared and keeps the skill. -/
theorem listing_and_clearing_agree_sample :
    ((sample.clearOwner .vacancySkill 1).2.listForOwner .vacancySkill 1).1 = .ok [] ∧
    (((sample.clearOwner .vacancySkill 1).2.associate .vacancySkill 1 [1, 1]).2.listForOwner
      .vacancySkill 1).1 = .ok [⟨1, "rust"⟩] ∧
    let held : Call := { connection := {
      committed := .sample, journal := .rollback, elsewhere := { writing := true } } }
    (held.clearOwner .vacancySkill 1).1 =
        .error (.internal (Activity.clearEdges .vacancySkill).text (some (.refused .locked))) ∧
      (held.clearOwner .vacancySkill 1).2.connection.committed = .sample := by
  obtain ⟨hagree, hfailed⟩ := listing_and_clearing_agree .vacancySkill 1
  obtain ⟨es, hes, -, -, -, -, hempty, -, -, hrestored⟩ :=
    hagree sample sample_undisturbed Database.sample_conforms
  have hlist : (sample.listForOwner .vacancySkill 1).1 = .ok [⟨1, "rust"⟩] := by decide +kernel
  obtain rfl : es = [⟨1, "rust"⟩] := Except.ok.inj (hes.symm.trans hlist)
  refine ⟨hempty, (hrestored [1, 1] (by simp)).2, ?_⟩
  intro held
  have hlocked : (held.clearOwner .vacancySkill 1).1 =
      .error (.internal (Activity.clearEdges .vacancySkill).text (some (.refused .locked))) := by
    decide +kernel
  have hobstacle : held.connection.writeObstacle? = some .locked := rfl
  refine ⟨hlocked, (hfailed held rfl _ hlocked).resolve_right ?_⟩
  rintro ⟨hnone, -⟩
  exact nomatch hnone.symm.trans hobstacle

/-- The small store with as many skills of the vacancy as make its clearing take a thousand
steps. -/
def crowdedTables : Database :=
  { Database.sample with
    dictionaries := { Database.sample.dictionaries with
      skill := some { rows := (List.range 47).map fun n => ⟨n + 1, toString n⟩ } }
    edges := { Database.sample.edges with
      vacancySkill := some {
        rows := (List.range 47).map fun n => ⟨1, n + 1⟩
        indexes := (TableName.edges .vacancySkill).indexes } } }

/-- A call on that store whose token fires as soon as a row is written. -/
def crowded : Call where
  connection := { committed := crowdedTables }
  signal := { alarms := [⟨.write, 1, .cancelled⟩] }

/-- A failure to clear an owner need not leave the tables as they were: the vacancy with that many
skills has none left after the cancellation. -/
theorem not_clearOwner_always_undone :
    ¬ ∀ (k : EdgeKind) (owner : Int) (s : Call), s.connection.transaction = none →
      s.connection.committed.Plain → s.connection.committed.Conforms →
        ∀ e, (s.clearOwner k owner).1 = .error e →
          (s.clearOwner k owner).2.connection.committed = s.connection.committed := by
  intro h
  have herror : (crowded.clearOwner .vacancySkill 1).1 =
      .error (.internal (Activity.clearEdges .vacancySkill).text
        (some (.abandoned .cancelled))) := by
    decide +kernel
  have hsame := h .vacancySkill 1 crowded rfl (by decide +kernel) (by decide +kernel) _ herror
  have hnone : ((crowded.clearOwner .vacancySkill 1).2.connection.committed.rows
      (.edges .vacancySkill)).length = 0 := by
    decide +kernel
  rw [hsame] at hnone
  exact absurd hnone (by decide +kernel)

end Call

end JobBoard
