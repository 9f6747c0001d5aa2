import JobBoard.Proofs.Store.Consistency

/-!
# Conforming tables

Tables conform to the schema if every row keeps the rules of its table, no two rows agree where they
must not, and every reference is found (`Conforms`). Rows that came in while rules were not checked
may break them, but they are still linked to each other as the schema wants (`Linked`). What the
schema says about a single table is read off that.
-/

set_option autoImplicit false

namespace JobBoard.Store

/-- The rows of a table are as the schema wants them. -/
structure Table.Conforms (db : Database) (t : TableName) (x : Table t.Row) : Prop where
  rules : ∀ rule ∈ (relation t x.relaxed).rules, ∀ a ∈ x.rows, rule.holds a = true
  uniques : ∀ u ∈ (relation t x.relaxed).uniques, x.rows.Pairwise fun a b => u.agree a b = false
  references : ∀ r ∈ (relation t x.relaxed).references, ∀ a ∈ x.rows, ∀ id ∈ r.key a,
    db.hasId r.target id = true

/-- The rows of a table have keys and references as the schema wants them. What else is in them is
open. -/
structure Table.Linked (db : Database) (t : TableName) (x : Table t.Row) : Prop where
  uniques : ∀ u ∈ (relation t x.relaxed).uniques, x.rows.Pairwise fun a b => u.agree a b = false
  references : ∀ r ∈ (relation t x.relaxed).references, ∀ a ∈ x.rows, ∀ id ∈ r.key a,
    db.hasId r.target id = true

instance (db : Database) (t : TableName) (x : Table t.Row) : Decidable (Table.Conforms db t x) :=
  decidable_of_iff
    ((∀ rule ∈ (relation t x.relaxed).rules, ∀ a ∈ x.rows, rule.holds a = true) ∧
      (∀ u ∈ (relation t x.relaxed).uniques, x.rows.Pairwise fun a b => u.agree a b = false) ∧
      ∀ r ∈ (relation t x.relaxed).references, ∀ a ∈ x.rows, ∀ id ∈ r.key a,
        db.hasId r.target id = true)
    ⟨fun ⟨a, b, c⟩ => ⟨a, b, c⟩, fun ⟨a, b, c⟩ => ⟨a, b, c⟩⟩

instance (db : Database) (t : TableName) (x : Table t.Row) : Decidable (Table.Linked db t x) :=
  decidable_of_iff
    ((∀ u ∈ (relation t x.relaxed).uniques, x.rows.Pairwise fun a b => u.agree a b = false) ∧
      ∀ r ∈ (relation t x.relaxed).references, ∀ a ∈ x.rows, ∀ id ∈ r.key a,
        db.hasId r.target id = true)
    ⟨fun ⟨a, b⟩ => ⟨a, b⟩, fun ⟨a, b⟩ => ⟨a, b⟩⟩

namespace Database

/-- All tables of the schema are there, and their rows are as it wants them. -/
def Conforms (db : Database) : Prop := ∀ t, ∃ x, db.table t = some x ∧ Table.Conforms db t x

/-- All tables of the schema are there, with keys and references as it wants them. -/
def Linked (db : Database) : Prop := ∀ t, ∃ x, db.table t = some x ∧ Table.Linked db t x

instance (db : Database) : Decidable db.Conforms :=
  inferInstanceAs (Decidable (∀ t, ∃ x, db.table t = some x ∧ Table.Conforms db t x))

instance (db : Database) : Decidable db.Linked :=
  inferInstanceAs (Decidable (∀ t, ∃ x, db.table t = some x ∧ Table.Linked db t x))

theorem Conforms.linked {db : Database} (h : db.Conforms) : db.Linked := by
  intro t
  obtain ⟨x, hx, hconforms⟩ := h t
  exact ⟨x, hx, hconforms.uniques, hconforms.references⟩

theorem Linked.exists_table {db : Database} (h : db.Linked) (t : TableName) :
    ∃ x, db.table t = some x := by
  obtain ⟨x, hx, -⟩ := h t
  exact ⟨x, hx⟩

theorem sample_conforms : sample.Conforms := by decide

/-! ## Rows -/

variable {db : Database}

theorem Conforms.rule (h : db.Conforms) {t : TableName} {r : Rule t.Row}
    (hr : ∀ relaxed, r ∈ (relation t relaxed).rules) : ∀ a ∈ db.rows t, r.holds a = true := by
  obtain ⟨x, hx, hconforms⟩ := h t
  rw [rows_of_table hx]
  exact hconforms.rules r (hr x.relaxed)

theorem Linked.unique (h : db.Linked) {t : TableName} {u : Unique t.Row}
    (hu : ∀ relaxed, u ∈ (relation t relaxed).uniques) :
    (db.rows t).Pairwise fun a b => u.agree a b = false := by
  obtain ⟨x, hx, hlinked⟩ := h t
  rw [rows_of_table hx]
  exact hlinked.uniques u (hu x.relaxed)

theorem Linked.reference (h : db.Linked) {t : TableName} {r : Reference t.Row}
    (hr : ∀ relaxed, r ∈ (relation t relaxed).references) {a : t.Row} (ha : a ∈ db.rows t)
    {id : Int} (hid : r.key a = some id) : db.hasId r.target id = true := by
  obtain ⟨x, hx, hlinked⟩ := h t
  rw [rows_of_table hx] at ha
  exact hlinked.references r (hr x.relaxed) a ha id hid

/-- Rows that agree nowhere in a column have different values there. -/
theorem nodup_of_unique {α β : Type} [BEq β] [LawfulBEq β] {f : α → β} {rows : List α}
    (h : rows.Pairwise fun a b => (f a == f b) = false) : (rows.map f).Nodup := by
  rw [List.Nodup, List.pairwise_map]
  refine h.imp ?_
  intro a b hab
  exact beq_eq_false_iff_ne.1 hab

theorem Linked.nodup_entryIds (h : db.Linked) (d : Dictionary) :
    ((db.rows (.dictionary d)).map Entry.id).Nodup :=
  nodup_of_unique (h.unique (t := .dictionary d) (u := uniqueRowId Entry.id)
    fun _ => List.mem_cons_self)

theorem Linked.nodup_entryNames (h : db.Linked) (d : Dictionary) :
    ((db.rows (.dictionary d)).map Entry.name).Nodup :=
  nodup_of_unique (h.unique (t := .dictionary d)
    (u := ⟨false, ["name"], fun a b => a.name == b.name⟩)
    fun _ => List.mem_cons_of_mem _ List.mem_cons_self)

theorem Linked.nodup_employerIds (h : db.Linked) :
    ((db.rows .employer).map Employer.id).Nodup :=
  nodup_of_unique (h.unique (t := .employer) (u := uniqueRowId Employer.id)
    fun _ => List.mem_cons_self)

theorem Linked.nodup_vacancyIds (h : db.Linked) : ((db.rows .vacancy).map Vacancy.id).Nodup :=
  nodup_of_unique (h.unique (t := .vacancy) (u := uniqueRowId Vacancy.id)
    fun _ => List.mem_cons_self)

/-! ## Vacancies -/

theorem Linked.exists_employer (h : db.Linked) {v : Vacancy} (hv : v ∈ db.rows .vacancy) :
    ∃ e ∈ db.rows .employer, e.id = v.employerId := by
  have hid := h.reference (t := .vacancy)
    (r := ⟨"employer_id", .employer, fun v => some v.employerId, true, false⟩)
    (fun _ => by simp [relation, vacancyRelation]) hv rfl
  simpa [hasId, ids] using hid

theorem Linked.exists_specialization (h : db.Linked) {v : Vacancy} (hv : v ∈ db.rows .vacancy)
    {id : Int} (hid : v.specializationId = some id) :
    ∃ e ∈ db.rows (.dictionary .specialization), e.id = id := by
  have hfound := h.reference (t := .vacancy)
    (r := ⟨"specialization_id", .dictionary .specialization, Vacancy.specializationId, false,
      false⟩)
    (fun _ => by simp [relation, vacancyRelation]) hv hid
  exact (hasId_dictionary db .specialization id).1 hfound

/-- A column with a list of allowed texts holds one of them. -/
theorem Conforms.mem_texts (h : db.Conforms) (column : String) {texts : List String}
    {f : Vacancy → String} (hf : memberRule column texts f ∈ vacancyRelation.rules) {v : Vacancy}
    (hv : v ∈ db.rows .vacancy) : f v ∈ texts := by
  have hrule := h.rule (t := .vacancy) (r := memberRule column texts f) (fun _ => hf) v hv
  simpa [memberRule] using hrule

theorem Conforms.exists_employment (h : db.Conforms) {v : Vacancy} (hv : v ∈ db.rows .vacancy) :
    ∃ e : Employment, e.text = v.employment := by
  have hmem : v.employment ∈ Employment.all.map Employment.text :=
    h.mem_texts "employment" (f := Vacancy.employment) (by simp [vacancyRelation]) hv
  obtain ⟨e, -, he⟩ := List.mem_map.1 hmem
  exact ⟨e, he⟩

theorem Conforms.exists_experience (h : db.Conforms) {v : Vacancy} (hv : v ∈ db.rows .vacancy) :
    ∃ e : Experience, e.text = v.experience := by
  have hmem : v.experience ∈ Experience.all.map Experience.text :=
    h.mem_texts "experience" (f := Vacancy.experience) (by simp [vacancyRelation]) hv
  obtain ⟨e, -, he⟩ := List.mem_map.1 hmem
  exact ⟨e, he⟩

end Database

end JobBoard.Store
