import JobBoard.Store.Insert
import Mathlib.Data.List.Nodup
import Mathlib.Data.List.Perm.Subperm

/-!
# Rows and ids of tables

What replacing one table does to the rows and the ids of all tables, the id that a name has in a
dictionary (`Database.idOf?`), and the ids that the store chooses: the next id of a table is one
that no row has (`nextId_not_mem`), and it is positive if all ids are (`nextId_pos`).
-/

set_option autoImplicit false

namespace JobBoard.Store

/-! ## Rows with keys -/

/-- Where no two rows have the same key, a look-up by the key of a row finds that row. -/
theorem find?_of_nodup_map {α β : Type} [BEq β] [LawfulBEq β] {f : α → β} {rows : List α}
    (h : (rows.map f).Nodup) {a : α} (ha : a ∈ rows) :
    rows.find? (fun b => f b == f a) = some a := by
  cases hfind : rows.find? fun b => f b == f a with
  | none => exact absurd (beq_self_eq_true (f a)) (List.find?_eq_none.1 hfind a ha)
  | some b =>
    have hkey : f b = f a := by simpa using List.find?_some hfind
    rw [List.inj_on_of_nodup_map h (List.mem_of_find?_eq_some hfind) ha hkey]

theorem find?_eq_some_iff_of_nodup_map {α β : Type} [BEq β] [LawfulBEq β] {f : α → β}
    {rows : List α} (h : (rows.map f).Nodup) (b : β) (a : α) :
    rows.find? (fun a => f a == b) = some a ↔ a ∈ rows ∧ f a = b := by
  constructor
  · intro hfind
    exact ⟨List.mem_of_find?_eq_some hfind, by simpa using List.find?_some hfind⟩
  · rintro ⟨ha, rfl⟩
    exact find?_of_nodup_map h ha

/-- Rows with different keys are sorted strictly by an order that decides between different keys. -/
theorem pairwise_mergeSort_of_nodup_map {α β : Type} {le : α → α → Bool} {lt : α → α → Prop}
    {f : α → β} (htrans : ∀ a b c, le a b = true → le b c = true → le a c = true)
    (htotal : ∀ a b, (le a b || le b a) = true)
    (hstrict : ∀ a b, le a b = true → f a ≠ f b → lt a b) {rows : List α}
    (h : (rows.map f).Nodup) : (rows.mergeSort le).Pairwise lt := by
  have hsorted : (rows.mergeSort le).Pairwise fun a b => le a b = true :=
    List.pairwise_mergeSort htrans htotal rows
  have hperm := (List.mergeSort_perm rows le).map f
  have hdistinct : (rows.mergeSort le).Pairwise fun a b => f a ≠ f b :=
    List.pairwise_map.1 (hperm.nodup_iff.2 h)
  refine (hsorted.and hdistinct).imp ?_
  rintro a b ⟨hab, hne⟩
  exact hstrict a b hab hne

namespace Database

/-! ## Rows -/

theorem rows_of_table {db : Database} {t : TableName} {x : Table t.Row} (h : db.table t = some x) :
    db.rows t = x.rows := by
  simp [rows, h]

@[simp] theorem rows_setTable_self (db : Database) (t : TableName) (x : Table t.Row) :
    (db.setTable t (some x)).rows t = x.rows := by
  simp [rows]

theorem rows_setTable_of_ne (db : Database) {t u : TableName} (x : Option (Table t.Row))
    (h : u ≠ t) : (db.setTable t x).rows u = db.rows u := by
  simp [rows, table_setTable_of_ne db x h]

theorem table_setRows_self {db : Database} {t : TableName} {x : Table t.Row}
    (h : db.table t = some x) (rows : List t.Row) :
    (db.setRows t rows).table t = some { x with rows } := by
  simp [setRows, h]

theorem table_setRows_of_ne (db : Database) {t u : TableName} (rows : List t.Row) (h : u ≠ t) :
    (db.setRows t rows).table u = db.table u := by
  unfold setRows
  split
  · exact table_setTable_of_ne db _ h
  · rfl

theorem rows_setRows_self {db : Database} {t : TableName} {x : Table t.Row}
    (h : db.table t = some x) (rows : List t.Row) : (db.setRows t rows).rows t = rows :=
  rows_of_table (table_setRows_self h rows)

theorem rows_setRows_of_ne (db : Database) {t u : TableName} (rows : List t.Row) (h : u ≠ t) :
    (db.setRows t rows).rows u = db.rows u := by
  simp [Database.rows, table_setRows_of_ne db rows h]

@[simp] theorem setTable_setTable (db : Database) (t : TableName) (x y : Option (Table t.Row)) :
    (db.setTable t x).setTable t y = db.setTable t y := by
  cases t with
  | dictionary d => cases d <;> rfl
  | edges k => cases k <;> rfl
  | employer => rfl
  | applicant => rfl
  | vacancy => rfl
  | resume => rfl

/-- What is set in different tables can be set in either order. -/
theorem setTable_comm (db : Database) {t u : TableName} (h : t ≠ u) (x : Option (Table t.Row))
    (y : Option (Table u.Row)) :
    (db.setTable t x).setTable u y = (db.setTable u y).setTable t x := by
  cases t <;> cases u <;> try rfl
  · rename_i d d'
    cases d <;> cases d' <;> first | rfl | exact absurd rfl h
  · exact absurd rfl h
  · exact absurd rfl h
  · exact absurd rfl h
  · exact absurd rfl h
  · rename_i k k'
    cases k <;> cases k' <;> first | rfl | exact absurd rfl h

theorem setTable_of_table {db : Database} {t : TableName} {x : Table t.Row}
    (h : db.table t = some x) : db.setTable t (some x) = db := by
  rw [← h]
  cases t with
  | dictionary d => cases d <;> rfl
  | edges k => cases k <;> rfl
  | employer => rfl
  | applicant => rfl
  | vacancy => rfl
  | resume => rfl

/-- A table of the board that stands where it belongs is the one that a statement finds there. -/
theorem occupant_eq_own_iff (db : Database) (t : TableName) (x : Table t.Row) :
    db.occupant t = .own x ↔ db.table t = some x := by
  unfold occupant
  cases h : db.table t with
  | some y => simp
  | none =>
    cases db.foreignTable? t.text <;> simp

theorem use_eq_ok_iff (db : Database) (t : TableName) (column : String) (x : Table t.Row) :
    db.use t column = .ok x ↔ db.table t = some x := by
  rw [use, ← occupant_eq_own_iff]
  cases db.occupant t <;> simp

/-! ## Statements about all tables -/

theorem mem_all (t : TableName) : t ∈ TableName.all := by
  cases t with
  | dictionary d => cases d <;> decide
  | edges k => cases k <;> decide
  | employer => decide
  | applicant => decide
  | vacancy => decide
  | resume => decide

/-- There are ten tables, so what is decided for each is decided for all. -/
instance (p : TableName → Prop) [DecidablePred p] : Decidable (∀ t, p t) :=
  decidable_of_iff (∀ t ∈ TableName.all, p t) ⟨fun h t => h t (mem_all t), fun h t _ => h t⟩

instance {α : Type} (o : Option α) (p : α → Prop) [DecidablePred p] :
    Decidable (∃ a, o = some a ∧ p a) :=
  inferInstanceAs (Decidable (∃ a ∈ o, p a))

/-! ## References judged at the commit -/

/-- Only a relaxed join table has references that are judged at the commit. -/
theorem owes_eq_false {db : Database}
    (h : ∀ k x, db.table (.edges k) = some x → x.relaxed = false) : db.owes = false := by
  rw [owes, List.any_eq_false]
  intro t _
  rw [Bool.not_eq_true, dangles]
  split
  · rfl
  · rename_i x hx
    have hnow : ∀ r ∈ (relation t x.relaxed).references, r.deferred = false := by
      cases t with
      | edges k =>
        rw [h k x hx]
        simp [relation, edgeRelation]
      | dictionary d => simp [relation, dictionaryRelation]
      | employer => simp [relation, employerRelation]
      | applicant => simp [relation, applicantRelation]
      | vacancy => simp [relation, vacancyRelation]
      | resume => simp [relation, resumeRelation]
    rw [List.any_eq_false]
    intro r hr
    simp [hnow r hr]

/-! ## Ids -/

theorem ids_congr {db db' : Database} {t : TableName} (h : db.rows t = db'.rows t) :
    db.ids t = db'.ids t := by
  cases t with
  | edges k => rfl
  | dictionary d => simp [ids, h]
  | employer => simp [ids, h]
  | applicant => simp [ids, h]
  | vacancy => simp [ids, h]
  | resume => simp [ids, h]

theorem hasId_congr {db db' : Database} {t : TableName} (h : db.rows t = db'.rows t) (id : Int) :
    db.hasId t id = db'.hasId t id := by
  simp [hasId, ids_congr h]

theorem hasId_dictionary (db : Database) (d : Dictionary) (id : Int) :
    db.hasId (.dictionary d) id = true ↔ ∃ e ∈ db.rows (.dictionary d), e.id = id := by
  simp [hasId, ids]

/-! ## The id of a name -/

/-- The id that a name has in a dictionary. -/
def idOf? (db : Database) (d : Dictionary) (name : String) : Option Int :=
  ((db.rows (.dictionary d)).find? (·.name == name)).map Entry.id

theorem mem_rows_of_idOf? {db : Database} {d : Dictionary} {name : String} {id : Int}
    (h : db.idOf? d name = some id) : ⟨id, name⟩ ∈ db.rows (.dictionary d) := by
  obtain ⟨e, he, rfl⟩ := Option.map_eq_some_iff.1 h
  obtain rfl : e.name = name := by simpa using List.find?_some he
  exact List.mem_of_find?_eq_some he

theorem idOf?_of_mem {db : Database} {d : Dictionary} {e : Entry}
    (hnames : ((db.rows (.dictionary d)).map Entry.name).Nodup) (he : e ∈ db.rows (.dictionary d)) :
    db.idOf? d e.name = some e.id := by
  rw [idOf?, find?_of_nodup_map hnames he, Option.map_some]

theorem idOf?_eq_none_iff (db : Database) (d : Dictionary) (name : String) :
    db.idOf? d name = none ↔ ∀ e ∈ db.rows (.dictionary d), e.name ≠ name := by
  simp [idOf?]

end Database

/-! ## Chosen ids -/

theorem le_foldl_max (ids : List Int) (start : Int) :
    start ≤ ids.foldl max start ∧ ∀ i ∈ ids, i ≤ ids.foldl max start := by
  induction ids generalizing start with
  | nil => exact ⟨Int.le_refl _, by simp⟩
  | cons j rest ih =>
    obtain ⟨hstart, hrest⟩ := ih (max start j)
    rw [List.foldl_cons]
    refine ⟨by omega, fun i hi => ?_⟩
    rcases List.mem_cons.1 hi with rfl | hi
    · omega
    · exact hrest i hi

/-- Among the first `n + 1` positive numbers, one is not in a list of `n`. -/
theorem leastFreeId_not_mem (ids : List Int) : leastFreeId ids ∉ ids ∧ 0 < leastFreeId ids := by
  unfold leastFreeId
  generalize hc : ((List.range (ids.length + 1)).map fun n : Nat => (n + 1 : Int)) = candidates
  have hlen : candidates.length = ids.length + 1 := by simp [← hc]
  have hnodup : candidates.Nodup := by
    rw [← hc]
    exact List.nodup_range.map fun a b hab => by omega
  cases hf : candidates.find? fun i => !ids.contains i with
  | some i =>
    have hfree := List.find?_some hf
    have hmem := List.mem_of_find?_eq_some hf
    rw [← hc, List.mem_map] at hmem
    obtain ⟨n, -, rfl⟩ := hmem
    simp only [hf, Option.getD_some]
    exact ⟨by simpa using hfree, by omega⟩
  | none =>
    -- all candidates would be taken, and they are too many
    exfalso
    rw [List.find?_eq_none] at hf
    have hsub : candidates ⊆ ids := fun i hi => by simpa using hf i hi
    have := (hnodup.subperm hsub).length_le
    omega

/-- The store never chooses an id that is taken. -/
theorem nextId_not_mem (ids : List Int) : nextId ids ∉ ids := by
  cases ids with
  | nil => simp
  | cons i rest =>
    unfold nextId
    obtain ⟨hstart, hrest⟩ := le_foldl_max rest i
    simp only
    split
    · intro hmem
      rcases List.mem_cons.1 hmem with heq | hmem
      · omega
      · have := hrest _ hmem
        omega
    · exact (leastFreeId_not_mem (i :: rest)).1

theorem nextId_pos {ids : List Int} (h : ∀ i ∈ ids, 0 < i) : 0 < nextId ids := by
  cases ids with
  | nil => decide
  | cons i rest =>
    unfold nextId
    have hstart := (le_foldl_max rest i).1
    have hi := h i List.mem_cons_self
    simp only
    split
    · omega
    · exact (leastFreeId_not_mem (i :: rest)).2

end JobBoard.Store
