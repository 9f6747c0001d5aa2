import JobBoard.Proofs.Store.Steps
import JobBoard.Store.Schema

/-!
# Consistent tables

The constraints that dictionaries and edges rest on, and that every elementary change of the tables
keeps (`Step.consistent`): names and ids are unique and ids positive, edges occur once, and both
ends of an edge exist. Changes never take an entry away (`Steps.keepsEntries`), so an id once given
to a name stays its id.
-/

set_option autoImplicit false

namespace JobBoard.Store

/-- A table as the schema makes it: no trigger was put on it and its rules are in force. -/
structure Table.Plain {α : Type} (x : Table α) : Prop where
  noTriggers : x.triggers = []
  strict : x.relaxed = false

instance {α : Type} (x : Table α) : Decidable x.Plain :=
  decidable_of_iff (x.triggers = [] ∧ x.relaxed = false)
    ⟨fun ⟨a, b⟩ => ⟨a, b⟩, fun ⟨a, b⟩ => ⟨a, b⟩⟩

namespace Database

/-- In every dictionary an entry is known by its id and by its name. -/
structure Keyed (db : Database) : Prop where
  entryIds : ∀ d, ((db.rows (.dictionary d)).map Entry.id).Nodup
  entryNames : ∀ d, ((db.rows (.dictionary d)).map Entry.name).Nodup

/-- The tables are those of the schema, and their dictionaries and edges keep their constraints. -/
structure Consistent (db : Database) : Prop extends db.Keyed where
  tables : ∀ t, ∃ x, db.table t = some x ∧ x.Plain
  entriesPositive : ∀ d, ∀ e ∈ db.rows (.dictionary d), 0 < e.id
  edgesUnique : ∀ k, (db.rows (.edges k)).Nodup
  edgesPositive : ∀ k, ∀ e ∈ db.rows (.edges k), 0 < e.owner ∧ 0 < e.entry
  owners : ∀ k, ∀ e ∈ db.rows (.edges k), db.hasId (.ofOwner k.owner) e.owner = true
  entries : ∀ k, ∀ e ∈ db.rows (.edges k),
    ∃ l ∈ db.rows (.dictionary k.dictionary), l.id = e.entry

/-- A small store with one vacancy, which asks for one of two skills. -/
def sample : Database where
  version := latestVersion
  dictionaries := ⟨some { rows := [⟨1, "rust"⟩, ⟨2, "sql"⟩] }, some { rows := [⟨1, "backend"⟩] },
    some {}⟩
  employer := some { rows := [⟨1, "Acme", 0, 0⟩] }
  applicant := some {}
  vacancy := some {
    rows := [⟨1, 1, some 1, "Engineer", 1, "full_time", "no_matter", some 100, none, 0, 5⟩]
    indexes := TableName.vacancy.indexes }
  resume := some {}
  edges := ⟨some { indexes := (TableName.edges .resumeSkill).indexes }, some {},
    some { rows := [⟨1, 1⟩], indexes := (TableName.edges .vacancySkill).indexes },
    some { indexes := (TableName.edges .vacancyCity).indexes }⟩

theorem sample_consistent : sample.Consistent where
  tables := by decide
  entryIds d := by cases d <;> decide
  entryNames d := by cases d <;> decide
  entriesPositive d := by cases d <;> decide
  edgesUnique k := by cases k <;> decide
  edgesPositive k := by cases k <;> decide
  owners k := by cases k <;> decide
  entries k := by cases k <;> decide

/-- Every entry of one database is in the other. -/
def KeepsEntries (db db' : Database) : Prop :=
  ∀ d, ∀ e ∈ db.rows (.dictionary d), e ∈ db'.rows (.dictionary d)

theorem KeepsEntries.refl (db : Database) : db.KeepsEntries db := fun _ _ h => h

theorem KeepsEntries.trans {a b c : Database} (hab : a.KeepsEntries b) (hbc : b.KeepsEntries c) :
    a.KeepsEntries c :=
  fun d e h => hbc d e (hab d e h)

/-! ## Rows after a change -/

theorem rows_withRow {db : Database} {t : TableName} {x : Table t.Row} (h : db.table t = some x)
    (a : t.Row) : (db.withRow t x a).rows t = db.rows t ++ [a] := by
  simp [withRow, rows_of_table h]

theorem rows_withRow_of_ne (db : Database) {t u : TableName} (x : Table t.Row) (a : t.Row)
    (h : u ≠ t) : (db.withRow t x a).rows u = db.rows u :=
  rows_setTable_of_ne db _ h

/-- A change keeps every table, its triggers and whether its rules are in force. -/
theorem Step.plain {ignoreRules : Bool} {area : Area} {db db' : Database}
    (h : Step ignoreRules area db db') (t : TableName)
    (ht : ∃ x, db.table t = some x ∧ x.Plain) : ∃ x, db'.table t = some x ∧ x.Plain := by
  obtain ⟨y, hy, hplain⟩ := ht
  -- only the table of the area is written, and then its rows alone are new
  by_cases harea : t = area.table
  · subst harea
    cases h with
    | enter there new written =>
      obtain rfl := Option.some.inj (there.symm.trans hy)
      exact ⟨_, table_setTable_self db _ _, hplain.noTriggers, hplain.strict⟩
    | attach there admitted =>
      obtain rfl := Option.some.inj (there.symm.trans hy)
      exact ⟨_, table_setTable_self db _ _, hplain.noTriggers, hplain.strict⟩
    | clear => exact ⟨_, table_setRows_self hy _, hplain.noTriggers, hplain.strict⟩
  · refine ⟨y, ?_, hplain⟩
    rw [← hy]
    cases h with
    | enter => exact table_setTable_of_ne db _ harea
    | attach => exact table_setTable_of_ne db _ harea
    | clear => exact table_setRows_of_ne db _ harea

theorem Steps.plain {ignoreRules : Bool} {areas : List Area} {db db' : Database}
    (h : Steps ignoreRules areas db db') (t : TableName)
    (ht : ∃ x, db.table t = some x ∧ x.Plain) : ∃ x, db'.table t = some x ∧ x.Plain :=
  h.preserves (P := fun db => ∃ x, db.table t = some x ∧ x.Plain)
    (fun _ _ _ hstep => hstep.plain t) ht

/-- A change leaves the other tables alone. -/
theorem Step.rows_of_ne {ignoreRules : Bool} {area : Area} {db db' : Database}
    (h : Step ignoreRules area db db') {t : TableName} (ht : t ≠ area.table) :
    db'.rows t = db.rows t := by
  cases h with
  | enter => exact rows_withRow_of_ne db _ _ ht
  | attach => exact rows_withRow_of_ne db _ _ ht
  | clear => exact rows_setRows_of_ne db _ ht

/-- A change never takes an entry away. -/
theorem Step.keepsEntries {ignoreRules : Bool} {area : Area} {db db' : Database}
    (h : Step ignoreRules area db db') : db.KeepsEntries db' := by
  intro d e he
  by_cases harea : TableName.dictionary d = area.table
  · cases h with
    | enter there new written =>
      obtain rfl := TableName.dictionary.inj harea
      rw [rows_withRow there]
      exact List.mem_append_left _ he
    | attach => simp [Area.table] at harea
    | clear => simp [Area.table] at harea
  · rw [h.rows_of_ne harea]
    exact he

theorem Steps.keepsEntries {ignoreRules : Bool} {areas : List Area} {db db' : Database}
    (h : Steps ignoreRules areas db db') : db.KeepsEntries db' := by
  refine h.preserves (P := fun db' => db.KeepsEntries db') ?_ (.refl db)
  intro area a b hab ha
  exact ha.trans hab.keepsEntries

/-! ## Constraints after a change -/

theorem ofOwner_ne_dictionary (o : Owner) (d : Dictionary) :
    TableName.ofOwner o ≠ .dictionary d := by
  cases o <;> simp [TableName.ofOwner]

/-- A change has no hand in the owners. -/
theorem Step.hasId_ofOwner {ignoreRules : Bool} {area : Area} {db db' : Database}
    (h : Step ignoreRules area db db') (o : Owner) (id : Int) :
    db'.hasId (.ofOwner o) id = db.hasId (.ofOwner o) id := by
  refine hasId_congr (h.rows_of_ne ?_) id
  cases area with
  | entries d => exact ofOwner_ne_dictionary o d
  | edges k owner => exact ofOwner_ne_edges o k

theorem nodup_ids_append_newEntry {x : Table Entry} (name : String)
    (h : (x.rows.map Entry.id).Nodup) :
    ((x.rows ++ [newEntry x name]).map Entry.id).Nodup := by
  rw [List.map_append, List.nodup_append]
  refine ⟨h, by simp, ?_⟩
  rintro i hi j hj rfl
  obtain rfl : i = nextId (x.rows.map Entry.id) := by simpa [newEntry] using hj
  exact nextId_not_mem _ hi

theorem nodup_names_append_newEntry {x : Table Entry} {name : String}
    (h : (x.rows.map Entry.name).Nodup) (hnew : ∀ e ∈ x.rows, e.name ≠ name) :
    ((x.rows ++ [newEntry x name]).map Entry.name).Nodup := by
  rw [List.map_append, List.nodup_append]
  refine ⟨h, by simp, ?_⟩
  rintro n hn m hm rfl
  obtain rfl : n = name := by simpa [newEntry] using hm
  obtain ⟨e, he, hname⟩ := List.mem_map.1 hn
  exact hnew e he hname

theorem newEntry_id_pos {x : Table Entry} (name : String) (h : ∀ e ∈ x.rows, 0 < e.id) :
    0 < (newEntry x name).id := by
  refine nextId_pos fun i hi => ?_
  obtain ⟨e, he, rfl⟩ := List.mem_map.1 hi
  exact h e he

/-- The rows of the dictionaries after a new name entered one of them. -/
theorem rows_dictionary_withRow {db : Database} {d : Dictionary} {x : Table Entry}
    (hx : db.table (.dictionary d) = some x) (e : Entry) (d' : Dictionary) :
    (db.withRow (.dictionary d) x e).rows (.dictionary d') =
      if d' = d then x.rows ++ [e] else db.rows (.dictionary d') := by
  split
  · rename_i h
    subst h
    rw [rows_withRow hx, rows_of_table hx]
  · rename_i h
    exact rows_withRow_of_ne (t := .dictionary d) db x e (by simpa using h)

/-- Whatever is ignored, ids and names stay unique: the id of a new name is chosen free. -/
theorem Step.keyed {ignoreRules : Bool} {area : Area} {db db' : Database}
    (h : Step ignoreRules area db db') (hdb : db.Keyed) : db'.Keyed := by
  cases area with
  | edges k owner =>
    have hsame : ∀ d, db'.rows (.dictionary d) = db.rows (.dictionary d) :=
      fun d => h.rows_of_ne (by simp [Area.table])
    exact ⟨fun d => hsame d ▸ hdb.entryIds d, fun d => hsame d ▸ hdb.entryNames d⟩
  | entries d =>
    cases h with
    | @enter _ _ x name there new written =>
      refine ⟨fun d' => ?_, fun d' => ?_⟩
      · rw [rows_dictionary_withRow there]
        split
        · exact nodup_ids_append_newEntry name (rows_of_table there ▸ hdb.entryIds d)
        · exact hdb.entryIds d'
      · rw [rows_dictionary_withRow there]
        split
        · exact nodup_names_append_newEntry (rows_of_table there ▸ hdb.entryNames d) new
        · exact hdb.entryNames d'

theorem Steps.keyed {ignoreRules : Bool} {areas : List Area} {db db' : Database}
    (h : Steps ignoreRules areas db db') (hdb : db.Keyed) : db'.Keyed :=
  h.preserves (fun _ _ _ hstep => hstep.keyed) hdb

theorem Consistent.enter {db : Database} (hc : db.Consistent) {d : Dictionary} {x : Table Entry}
    {name : String} (hx : db.table (.dictionary d) = some x) (hnew : ∀ e ∈ x.rows, e.name ≠ name)
    (hwritten : isWritten name = true) :
    (db.withRow (.dictionary d) x (newEntry x name)).Consistent := by
  have hstep : Step false _ db _ := .enter hx hnew fun _ => hwritten
  have hedges : ∀ k, (db.withRow (.dictionary d) x (newEntry x name)).rows (.edges k) =
      db.rows (.edges k) := fun k => hstep.rows_of_ne (by simp [Area.table])
  -- only the clauses on entries need the new one; edges and owners are as they were
  refine {
    hstep.keyed hc.toKeyed with
    tables := fun t => hstep.plain t (hc.tables t)
    entriesPositive := fun d' e he => ?_
    edgesUnique := fun k => hedges k ▸ hc.edgesUnique k
    edgesPositive := fun k => hedges k ▸ hc.edgesPositive k
    owners := fun k e he => ?_
    entries := fun k e he => ?_ }
  · rw [rows_dictionary_withRow hx] at he
    split at he
    · rename_i h
      rcases List.mem_append.1 he with he | he
      · exact hc.entriesPositive d e (rows_of_table hx ▸ he)
      · obtain rfl := List.mem_singleton.1 he
        exact newEntry_id_pos name (rows_of_table hx ▸ hc.entriesPositive d)
    · exact hc.entriesPositive d' e he
  · rw [hstep.hasId_ofOwner]
    exact hc.owners k e (hedges k ▸ he)
  · obtain ⟨l, hl, hid⟩ := hc.entries k e (hedges k ▸ he)
    exact ⟨l, hstep.keepsEntries _ l hl, hid⟩

theorem Consistent.attach {db : Database} (hc : db.Consistent) {k : EdgeKind} {x : Table Edge}
    {owner id : Int} (hx : db.table (.edges k) = some x)
    (hadmitted : db.AdmitsEdge false k x ⟨owner, id⟩) :
    (db.withRow (.edges k) x ⟨owner, id⟩).Consistent := by
  have hstep : Step false _ db _ := .attach hx hadmitted
  have hstrict : x.relaxed = false := by
    obtain ⟨y, hy, hplain⟩ := hc.tables (.edges k)
    obtain rfl := Option.some.inj (hx.symm.trans hy)
    exact hplain.strict
  have hentries : ∀ d, (db.withRow (.edges k) x ⟨owner, id⟩).rows (.dictionary d) =
      db.rows (.dictionary d) := fun d => hstep.rows_of_ne (by simp [Area.table])
  have hmem : ∀ k', ∀ e ∈ (db.withRow (.edges k) x ⟨owner, id⟩).rows (.edges k'),
      e ∈ db.rows (.edges k') ∨ (k' = k ∧ e = ⟨owner, id⟩) := by
    intro k' e he
    by_cases h : k' = k
    · subst h
      rw [rows_withRow hx] at he
      simpa using he
    · rw [hstep.rows_of_ne (by simpa [Area.table] using h)] at he
      exact .inl he
  refine {
    hstep.keyed hc.toKeyed with
    tables := fun t => hstep.plain t (hc.tables t)
    entriesPositive := fun d => hentries d ▸ hc.entriesPositive d
    edgesUnique := fun k' => ?_
    edgesPositive := fun k' e he => ?_
    owners := fun k' e he => ?_
    entries := fun k' e he => ?_ }
  · by_cases h : k' = k
    · subst h
      rw [rows_withRow hx, List.nodup_append]
      refine ⟨hc.edgesUnique k', by simp, ?_⟩
      rintro e he f hf rfl
      obtain rfl := List.mem_singleton.1 hf
      exact hadmitted.new (rows_of_table hx ▸ he)
    · rw [hstep.rows_of_ne (by simpa [Area.table] using h)]
      exact hc.edgesUnique k'
  · rcases hmem k' e he with he | ⟨rfl, rfl⟩
    · exact hc.edgesPositive k' e he
    · exact hadmitted.positive rfl hstrict
  · rw [hstep.hasId_ofOwner]
    rcases hmem k' e he with he | ⟨rfl, rfl⟩
    · exact hc.owners k' e he
    · exact hadmitted.owner
  · rw [hentries]
    rcases hmem k' e he with he | ⟨rfl, rfl⟩
    · exact hc.entries k' e he
    · exact (hasId_dictionary db _ _).1 (hadmitted.entry hstrict)

/-- Whatever edges go, what is left is consistent. -/
theorem Consistent.clear {db : Database} (hc : db.Consistent) (k : EdgeKind) (owner : Int) :
    (db.removeEdges k fun e => e.owner == owner).tables.Consistent := by
  have hstep : Step false (.edges k owner) db _ := .clear
  have hentries : ∀ d, (db.removeEdges k fun e => e.owner == owner).tables.rows (.dictionary d) =
      db.rows (.dictionary d) := fun d => hstep.rows_of_ne (by simp [Area.table])
  have hsub : ∀ k', ((db.removeEdges k fun e => e.owner == owner).tables.rows (.edges k')).Sublist
      (db.rows (.edges k')) := by
    intro k'
    by_cases h : k' = k
    · subst h
      obtain ⟨x, hx, -⟩ := hc.tables (.edges k')
      rw [show (db.removeEdges k' fun e => e.owner == owner).tables.rows (.edges k') = _ from
        rows_setRows_self hx _]
      exact List.filter_sublist
    · rw [hstep.rows_of_ne (by simpa [Area.table] using h)]
  exact {
    hstep.keyed hc.toKeyed with
    tables := fun t => hstep.plain t (hc.tables t)
    entriesPositive := fun d => hentries d ▸ hc.entriesPositive d
    edgesUnique := fun k' => (hc.edgesUnique k').sublist (hsub k')
    edgesPositive := fun k' e he => hc.edgesPositive k' e ((hsub k').subset he)
    owners := fun k' e he => hstep.hasId_ofOwner _ _ ▸ hc.owners k' e ((hsub k').subset he)
    entries := fun k' e he => hentries _ ▸ hc.entries k' e ((hsub k').subset he) }

/-- Every elementary change keeps the tables consistent. -/
theorem Step.consistent {area : Area} {db db' : Database} (h : Step false area db db')
    (hc : db.Consistent) : db'.Consistent := by
  cases h with
  | enter there new written => exact hc.enter there new (written rfl)
  | attach there admitted => exact hc.attach there admitted
  | clear => exact hc.clear _ _

theorem Steps.consistent {areas : List Area} {db db' : Database} (h : Steps false areas db db')
    (hc : db.Consistent) : db'.Consistent :=
  h.preserves (fun _ _ _ hstep => hstep.consistent) hc

end Database

end JobBoard.Store
