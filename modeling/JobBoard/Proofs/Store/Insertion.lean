import JobBoard.Proofs.Error.Classification
import JobBoard.Proofs.Store.Tables

/-!
# What an insertion does

Everything that the two insertions of the board can do to the tables. A row is refused and the
tables stay as they are, or it passes every test and stands at the end of its table
(`insertEntry_cases`, `insertEdge_cases`). A refusal for a clash means that the name, or the edge,
is there already: ids are chosen free, so they never clash.
-/

set_option autoImplicit false

namespace JobBoard.Store

namespace Effect

variable {α : Type}

@[simp] theorem answer_working (w : Work) (e : Effect α) : (e.working w).answer = e.answer := rfl

@[simp] theorem tables_working (w : Work) (e : Effect α) : (e.working w).tables = e.tables := rfl

@[simp] theorem touches_working (w : Work) (e : Effect α) : (e.working w).touches = e.touches := rfl

@[simp] theorem work_working (w : Work) (e : Effect α) : (e.working w).work = w := rfl

@[simp] theorem endsTransaction_working (w : Work) (e : Effect α) :
    (e.working w).endsTransaction = e.endsTransaction := rfl

end Effect

theorem Effect.refuse_eq_undo {α : Type} (db : Database) (cause : Refusal) :
    (Effect.refuse db cause : Effect α) = .undo db 0 cause := rfl

/-! ## Entering a table -/

section Enter

variable {α : Type} {r : Relation α}

theorem Relation.brokenRule?_eq_none_iff (a : α) :
    r.brokenRule? a = none ↔ ∀ rule ∈ r.rules, rule.holds a = true := by
  simp [Relation.brokenRule?]

theorem Relation.not_isDuplicate_of_brokenRule? {a : α} {cause : Refusal}
    (h : r.brokenRule? a = some cause) : cause.isDuplicate = false := by
  obtain ⟨rule, -, rfl⟩ := Option.map_eq_some_iff.1 h
  rfl

theorem Relation.clash?_eq_none_iff (table : String) (rows : List α) (a : α) :
    r.clash? table rows a = none ↔ ∀ u ∈ r.uniques, ∀ b ∈ rows, u.agree b a = false := by
  simp [Relation.clash?]

theorem Relation.exists_agree_of_clash? {table : String} {rows : List α} {a : α}
    {cause : Refusal} (h : r.clash? table rows a = some cause) :
    ∃ u ∈ r.uniques, ∃ b ∈ rows, u.agree b a = true := by
  obtain ⟨u, hu, -⟩ := Option.map_eq_some_iff.1 h
  have hagree := List.find?_some hu
  rw [List.any_eq_true] at hagree
  exact ⟨u, List.mem_of_find?_eq_some hu, hagree⟩

end Enter

namespace Database

/-- The tables once a row stands at the end of its table. -/
def withRow (db : Database) (t : TableName) (x : Table t.Row) (a : t.Row) : Database :=
  db.setTable t (some { x with rows := x.rows ++ [a] })

/-- A row meets all tests of a table. -/
structure Admits (db : Database) (ignoreRules : Bool) (t : TableName) (x : Table t.Row)
    (a : t.Row) : Prop where
  rules : ignoreRules = false → ∀ rule ∈ (relation t x.relaxed).rules, rule.holds a = true
  uniques : ∀ u ∈ (relation t x.relaxed).uniques, ∀ b ∈ x.rows, u.agree b a = false
  references : (db.withRow t x a).refersToNothing t x.relaxed a = false

/-- A row enters a table, or it is refused and nothing changes. A row that is refused for a clash
agrees with one of the table. -/
theorem enter_cases (db : Database) (ignoreRules : Bool) (t : TableName) (x : Table t.Row)
    (a : t.Row) :
    (∃ cause n, db.enter ignoreRules t x a = .undo db n cause ∧
      (cause.isDuplicate = true →
        ∃ u ∈ (relation t x.relaxed).uniques, ∃ b ∈ x.rows, u.agree b a = true)) ∨
    (db.Admits ignoreRules t x a ∧
      db.enter ignoreRules t x a = .done (db.withRow t x a) 1 ()) := by
  unfold enter
  cases hrule : (if ignoreRules then none else (relation t x.relaxed).brokenRule? a) with
  | some cause =>
    refine .inl ⟨cause, 0, by simp only [hrule, Effect.refuse_eq_undo], fun hdup => ?_⟩
    cases ignoreRules with
    | true => simp at hrule
    | false =>
      have := Relation.not_isDuplicate_of_brokenRule? (r := relation t x.relaxed)
        (by simpa using hrule)
      simp [this] at hdup
  | none =>
    cases hclash : (relation t x.relaxed).clash? t.text x.rows a with
    | some cause =>
      exact .inl ⟨cause, 0, by simp only [hrule, hclash, Effect.refuse_eq_undo],
        fun _ => Relation.exists_agree_of_clash? hclash⟩
    | none =>
      simp only [hrule, hclash]
      split
      · exact .inl ⟨.danglingReference, _, rfl, by simp [Refusal.isDuplicate]⟩
      · rename_i hrefers
        refine .inr ⟨⟨?_, (Relation.clash?_eq_none_iff _ _ _).1 hclash, ?_⟩, rfl⟩
        · rintro rfl
          exact (Relation.brokenRule?_eq_none_iff a).1 (by simpa using hrule)
        · exact Bool.eq_false_iff.2 hrefers

end Database

/-! ## Entries of a dictionary -/

/-- A reaction of a trigger changes no table and hands back nothing. -/
theorem react_cases {α : Type} (db : Database) (nothing : α) (reaction : Reaction) :
    (react db nothing reaction).tables = db ∧
      ((react db nothing reaction).answer = .ok nothing ∨
        ∃ m, (react db nothing reaction).answer = .error (.raised m)) := by
  cases reaction with
  | ignore => exact ⟨rfl, .inl rfl⟩
  | abort m => exact ⟨rfl, .inr ⟨m, rfl⟩⟩
  | fail m => exact ⟨rfl, .inr ⟨m, rfl⟩⟩
  | rollback m => exact ⟨rfl, .inr ⟨m, rfl⟩⟩

theorem blindTrigger?_not_isDuplicate {columns : List String} {triggers : List Trigger}
    {cause : Refusal} (h : blindTrigger? columns triggers = some cause) :
    cause.isDuplicate = false := by
  obtain ⟨t, -, rfl⟩ := Option.map_eq_some_iff.1 h
  rfl

/-- The entry that a name gets when it is inserted into a table. -/
def newEntry (x : Table Entry) (name : String) : Entry := ⟨nextId (x.rows.map Entry.id), name⟩

/-- What cannot be compiled is never a clash. -/
theorem insertEntry_error {ignoreRules : Bool} {d : Dictionary} {name : String} {db : Database}
    {cause : Refusal} (h : insertEntry ignoreRules d name db = .error cause) :
    cause.isDuplicate = false := by
  unfold insertEntry at h
  cases ho : db.occupant (.dictionary d) with
  | vacant =>
    simp only [ho, Except.error.injEq] at h
    exact h ▸ rfl
  | standIn f =>
    simp only [ho, Except.error.injEq] at h
    exact h ▸ rfl
  | own x =>
    simp only [ho] at h
    split at h
    · rename_i hb
      simp only [Except.error.injEq] at h
      exact h ▸ blindTrigger?_not_isDuplicate hb
    · split at h <;> simp at h

/-- A name is inserted: either nothing changes and no id is handed back, and in case of a clash the
name is there already; or the name is new and gets a free id, which is handed back before the
insertion is over. -/
theorem insertEntry_cases {ignoreRules : Bool} {d : Dictionary} {name : String} {db : Database}
    {e : Effect (Option Int)} (h : insertEntry ignoreRules d name db = .ok e) :
    ∃ x, db.table (.dictionary d) = some x ∧
      ((e.tables = db ∧ (∀ id, e.answer ≠ .ok (some id)) ∧
          ∀ cause, e.answer = .error cause → cause.isDuplicate = true →
            ∃ b ∈ x.rows, b.name = name) ∨
        ((∀ b ∈ x.rows, b.name ≠ name) ∧ (ignoreRules = false → isWritten name = true) ∧
          ∃ work : Work, work.after = 0 ∧
            e = (Effect.done (db.withRow (.dictionary d) x (newEntry x name)) 1
              (some (newEntry x name).id)).working work)) := by
  unfold insertEntry at h
  cases ho : db.occupant (.dictionary d) with
  | vacant => simp [ho] at h
  | standIn f => simp [ho] at h
  | own x =>
    refine ⟨x, (db.occupant_eq_own_iff _ x).1 ho, ?_⟩
    simp only [ho] at h
    split at h
    · simp at h
    · split at h
      · rename_i reaction _
        simp only [Except.ok.injEq] at h
        subst h
        obtain ⟨htables, hanswer⟩ := react_cases db (none : Option Int) reaction
        refine .inl ⟨htables, ?_, ?_⟩
        · rcases hanswer with h | ⟨m, h⟩ <;> simp [h]
        · rcases hanswer with h | ⟨m, h⟩ <;> simp +contextual [h, Refusal.isDuplicate, eq_comm]
      · simp only [Except.ok.injEq] at h
        subst h
        rcases db.enter_cases ignoreRules (.dictionary d) x (newEntry x name) with
          ⟨cause, n, heq, hdup⟩ | ⟨hadmits, heq⟩
        · refine .inl ?_
          rw [show db.enter ignoreRules (.dictionary d) x ⟨nextId (x.rows.map Entry.id), name⟩ =
            .undo db n cause from heq]
          refine ⟨rfl, fun id => by simp [Effect.map, Effect.undo, Except.map], ?_⟩
          intro cause' hcause' hdup'
          obtain rfl : cause = cause' := by
            simpa [Effect.map, Effect.undo, Except.map] using hcause'
          obtain ⟨u, hu, b, hb, hagree⟩ := hdup hdup'
          simp only [relation, dictionaryRelation, uniqueRowId, List.mem_cons, List.not_mem_nil,
            or_false] at hu
          rcases hu with rfl | rfl
          · -- the id was chosen free
            refine absurd ?_ (nextId_not_mem (x.rows.map Entry.id))
            exact List.mem_map.2 ⟨b, hb, by simpa [newEntry] using hagree⟩
          · exact ⟨b, hb, by simpa [newEntry] using hagree⟩
        · refine .inr ⟨fun b hb => ?_, fun hrules => ?_, ?_⟩
          · have := hadmits.uniques ⟨false, ["name"], fun a b => a.name == b.name⟩
              (by simp [relation, dictionaryRelation]) b hb
            simpa [newEntry] using this
          · have := hadmits.rules hrules (writtenRule "name" Entry.name)
              (by simp [relation, dictionaryRelation])
            simpa [writtenRule, newEntry] using this
          · rw [show db.enter ignoreRules (.dictionary d) x ⟨nextId (x.rows.map Entry.id), name⟩ =
              .done _ 1 () from heq]
            exact ⟨_, rfl, rfl⟩

/-! ## Edges -/

/-- A reference is lost to a table of another kind, or to none. -/
theorem lostReference?_cases {db : Database} {t : TableName} {p : String → Bool} {cause : Refusal}
    (h : db.lostReference? t p = some cause) :
    ∃ target : TableName, cause = .referenceMismatch t.text target.text ∨
      cause = .noTable ("main." ++ target.text) := by
  unfold Database.lostReference? at h
  split at h
  · exact nomatch h
  · obtain ⟨r, -, hr⟩ := List.exists_of_findSome?_eq_some h
    split at hr
    · refine ⟨r.target, ?_⟩
      unfold Database.lostTarget? at hr
      split at hr
      · exact nomatch hr
      · exact .inl (Option.some.inj hr).symm
      · exact .inr (Option.some.inj hr).symm
    · exact nomatch hr

theorem lostReference?_not_isDuplicate {db : Database} {t : TableName} {p : String → Bool}
    {cause : Refusal} (h : db.lostReference? t p = some cause) : cause.isDuplicate = false := by
  obtain ⟨target, rfl | rfl⟩ := lostReference?_cases h
  · rfl
  · rfl

/-- A table that an edge can be put into is there. -/
theorem Database.table_of_edgeObstacle? {db : Database} {k : EdgeKind}
    (h : db.edgeObstacle? k = none) : ∃ x, db.table (.edges k) = some x := by
  unfold edgeObstacle? at h
  cases ho : db.occupant (.edges k) with
  | vacant => simp [ho] at h
  | standIn f => simp [ho] at h
  | own x => exact ⟨x, (db.occupant_eq_own_iff _ x).1 ho⟩

theorem Database.edgeObstacle?_not_isDuplicate {db : Database} {k : EdgeKind} {cause : Refusal}
    (h : db.edgeObstacle? k = some cause) : cause.isDuplicate = false := by
  unfold edgeObstacle? at h
  cases ho : db.occupant (.edges k) with
  | vacant =>
    simp only [ho, Option.some.injEq] at h
    exact h ▸ rfl
  | standIn f =>
    simp only [ho, Option.some.injEq] at h
    exact h ▸ rfl
  | own x =>
    simp only [ho, Option.or_eq_some_iff] at h
    rcases h with h | ⟨-, h⟩
    · exact blindTrigger?_not_isDuplicate h
    · exact lostReference?_not_isDuplicate h

/-- Where all tables are there, and there is no trigger, nothing keeps edges from being inserted. -/
theorem Database.edgeObstacle?_eq_none {db : Database} {k : EdgeKind} {x : Table Edge}
    (htables : ∀ t, ∃ y, db.table t = some y) (hx : db.table (.edges k) = some x)
    (hplain : x.triggers = []) : db.edgeObstacle? k = none := by
  have htarget : ∀ t, db.lostTarget? (.edges k) t = none := by
    intro t
    obtain ⟨y, hy⟩ := htables t
    rw [lostTarget?, (db.occupant_eq_own_iff t y).2 hy]
  rw [edgeObstacle?, (db.occupant_eq_own_iff (.edges k) x).2 hx]
  simp [blindTrigger?, hplain, lostReference?, hx, htarget]

theorem insertEdge_error {ignoreRules : Bool} {k : EdgeKind} {edge : Edge} {db : Database}
    {cause : Refusal} (h : insertEdge ignoreRules k edge db = .error cause) :
    cause.isDuplicate = false := by
  unfold insertEdge at h
  cases ho : db.edgeObstacle? k with
  | some cause' =>
    simp only [ho, Except.error.injEq] at h
    exact h ▸ Database.edgeObstacle?_not_isDuplicate ho
  | none =>
    obtain ⟨x, hx⟩ := Database.table_of_edgeObstacle? ho
    simp only [ho, hx] at h
    split at h <;> simp at h

/-- What holds of an edge that was let in: it is new, and unless the table is relaxed both its ids
are positive, as far as rules are judged, and exist. -/
structure Database.AdmitsEdge (db : Database) (ignoreRules : Bool) (k : EdgeKind)
    (x : Table Edge) (edge : Edge) : Prop where
  new : edge ∉ x.rows
  positive : ignoreRules = false → x.relaxed = false → 0 < edge.owner ∧ 0 < edge.entry
  owner : db.hasId (.ofOwner k.owner) edge.owner = true
  entry : x.relaxed = false → db.hasId (.dictionary k.dictionary) edge.entry = true

theorem ofOwner_ne_edges (o : Owner) (k : EdgeKind) : TableName.ofOwner o ≠ .edges k := by
  cases o <;> simp [TableName.ofOwner]

theorem Database.hasId_withRow_edges (db : Database) (k : EdgeKind) (x : Table Edge) (edge : Edge)
    {t : TableName} (h : t ≠ .edges k) (id : Int) :
    (db.withRow (.edges k) x edge).hasId t id = db.hasId t id :=
  hasId_congr (rows_setTable_of_ne db _ h) id

theorem Database.Admits.edge {db : Database} {ignoreRules : Bool} {k : EdgeKind} {x : Table Edge}
    {edge : Edge} (h : db.Admits ignoreRules (.edges k) x edge) :
    db.AdmitsEdge ignoreRules k x edge where
  new := by
    intro hmem
    have := h.uniques ⟨false, [k.ownerColumn, k.entryColumn], fun a b => a == b⟩
      (by simp [relation, edgeRelation]) edge hmem
    simp at this
  positive := by
    intro hrules hrelaxed
    have h1 := h.rules hrules (positiveRule k.ownerColumn Edge.owner)
      (by simp [relation, edgeRelation, hrelaxed])
    have h2 := h.rules hrules (positiveRule k.entryColumn Edge.entry)
      (by simp [relation, edgeRelation, hrelaxed])
    exact ⟨by simpa [positiveRule] using h1, by simpa [positiveRule] using h2⟩
  owner := by
    have hrefs := h.references
    simp only [Database.refersToNothing, relation, edgeRelation, List.any_cons, List.any_nil,
      Bool.or_false, Bool.or_eq_false_iff] at hrefs
    have h2 := hrefs.2
    rw [Database.hasId_withRow_edges db k x edge (ofOwner_ne_edges k.owner k)] at h2
    simpa using h2
  entry := by
    intro hrelaxed
    have hrefs := h.references
    simp only [Database.refersToNothing, relation, edgeRelation, List.any_cons, List.any_nil,
      Bool.or_false, Bool.or_eq_false_iff] at hrefs
    have h1 := hrefs.1
    rw [Database.hasId_withRow_edges db k x edge (by simp)] at h1
    simpa [hrelaxed] using h1

/-- What triggers see of a new edge. -/
def shownEdge (k : EdgeKind) (edge : Edge) : Shown :=
  { keyed := false
    values := [(k.ownerColumn, .integer edge.owner), (k.entryColumn, .integer edge.entry)] }

/-- The insertion of an edge that could be compiled: the newest trigger that it sets off decides,
or else the tests of the table. -/
theorem insertEdge_eq (ignoreRules : Bool) {k : EdgeKind} {db : Database} {x : Table Edge}
    (hobstacle : db.edgeObstacle? k = none) (hx : db.table (.edges k) = some x) (edge : Edge) :
    ∃ work, insertEdge ignoreRules k edge db = .ok (Effect.working work
      (match firing? x.triggers (shownEdge k edge) with
      | some reaction => react db () reaction
      | none => db.enter ignoreRules (.edges k) x edge)) := by
  simp only [insertEdge, hobstacle, hx, shownEdge]
  cases firing? x.triggers { keyed := false, values := _ } <;> exact ⟨_, rfl⟩

/-- An edge is inserted: it is refused, and in case of a clash it is there already; or a trigger
leaves it out; or it stands in its table. -/
theorem insertEdge_cases {ignoreRules : Bool} {k : EdgeKind} {edge : Edge} {db : Database}
    {e : Effect Unit} (h : insertEdge ignoreRules k edge db = .ok e) :
    ∃ x, db.table (.edges k) = some x ∧
      ((e.tables = db ∧ ∃ cause, e.answer = .error cause ∧
          (cause.isDuplicate = true → edge ∈ x.rows ∧ e.endsTransaction = false)) ∨
        (x.triggers ≠ [] ∧ ∃ work, e = (Effect.done db 0 ()).working work) ∨
        (db.AdmitsEdge ignoreRules k x edge ∧
          ∃ work, e = (Effect.done (db.withRow (.edges k) x edge) 1 ()).working work)) := by
  cases ho : db.edgeObstacle? k with
  | some cause => simp [insertEdge, ho] at h
  | none =>
    obtain ⟨x, hx⟩ := Database.table_of_edgeObstacle? ho
    refine ⟨x, hx, ?_⟩
    obtain ⟨work, heq⟩ := insertEdge_eq ignoreRules ho hx edge
    obtain rfl := Except.ok.inj (heq.symm.trans h)
    cases hfires : firing? x.triggers (shownEdge k edge) with
    | some reaction =>
      cases reaction with
      | ignore =>
        refine .inr (.inl ⟨?_, _, rfl⟩)
        intro hnone
        simp [firing?, hnone] at hfires
      | abort m => exact .inl ⟨rfl, _, rfl, by simp [Refusal.isDuplicate]⟩
      | fail m => exact .inl ⟨rfl, _, rfl, by simp [Refusal.isDuplicate]⟩
      | rollback m => exact .inl ⟨rfl, _, rfl, by simp [Refusal.isDuplicate]⟩
    | none =>
      rcases db.enter_cases ignoreRules (.edges k) x edge with
        ⟨cause, n, heq, hdup⟩ | ⟨hadmits, heq⟩
      · simp only [heq]
        refine .inl ⟨rfl, cause, rfl, fun hdup' => ⟨?_, rfl⟩⟩
        -- the pair is the only key of a join table
        obtain ⟨u, hu, b, hb, hagree⟩ := hdup hdup'
        simp only [relation, edgeRelation, List.mem_cons, List.not_mem_nil, or_false] at hu
        subst hu
        obtain rfl : b = edge := by simpa using hagree
        exact hb
      · simp only [heq]
        exact .inr (.inr ⟨hadmits.edge, _, rfl⟩)

end JobBoard.Store
