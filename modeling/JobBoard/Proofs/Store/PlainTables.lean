import JobBoard.Proofs.Store.Consistency

/-!
# What writes do to plain tables

Where all tables are there, none has a trigger, and their rules are in force, the three writes of
the board are decided by a few rows: a name enters a dictionary unless it is there or blank
(`insertEntry_of_new`, `insertEntry_of_blank`), an edge enters its join table unless a rule forbids
it, it is there, or one of its ends is not (`enter_edge_of_plain`), and the edges of an owner go
(`clearEdges_of_plain`).
-/

set_option autoImplicit false

namespace JobBoard.Store

namespace Database

variable {db : Database} {t : TableName}

/-! ## Plain tables -/

/-- Every table is there, as the schema makes it. -/
def Plain (db : Database) : Prop := ∀ t, ∃ x, db.table t = some x ∧ x.Plain

instance (db : Database) : Decidable db.Plain :=
  inferInstanceAs (Decidable (∀ t, ∃ x, db.table t = some x ∧ x.Plain))

theorem Plain.of_table (h : db.Plain) {x : Table t.Row} (hx : db.table t = some x) : x.Plain := by
  obtain ⟨y, hy, hplain⟩ := h t
  obtain rfl := Option.some.inj (hx.symm.trans hy)
  exact hplain

theorem Plain.setTable (h : db.Plain) {x : Table t.Row} (hx : x.Plain) :
    (db.setTable t (some x)).Plain := by
  intro u
  by_cases hu : u = t
  · subst hu
    exact ⟨x, table_setTable_self db u _, hx⟩
  · rw [table_setTable_of_ne db _ hu]
    exact h u

theorem Plain.owes (h : db.Plain) : db.owes = false :=
  owes_eq_false fun _ _ hx => (h.of_table hx).strict

theorem Plain.edgeObstacle? (h : db.Plain) (k : EdgeKind) : db.edgeObstacle? k = none := by
  obtain ⟨x, hx, hplain⟩ := h (.edges k)
  exact edgeObstacle?_eq_none (fun t => (h t).imp fun _ => And.left) hx hplain.noTriggers

/-- No reference leads to a table that is missing. -/
theorem Plain.lostReference? (h : db.Plain) (t : TableName) (concerns : String → Bool) :
    db.lostReference? t concerns = none := by
  have htarget : ∀ target, db.lostTarget? t target = none := by
    intro target
    obtain ⟨x, hx, -⟩ := h target
    rw [lostTarget?, (db.occupant_eq_own_iff target x).2 hx]
  unfold Database.lostReference?
  split
  · rfl
  · rw [List.findSome?_eq_none_iff]
    intro r _
    rw [htarget, ite_self]

/-! ## Entering -/

/-- A row that meets all tests stands at the end of its table. -/
theorem enter_of_admits {ignoreRules : Bool} {x : Table t.Row} {a : t.Row}
    (h : db.Admits ignoreRules t x a) :
    db.enter ignoreRules t x a = .done (db.withRow t x a) 1 () := by
  have hrules : (if ignoreRules then none else (relation t x.relaxed).brokenRule? a) = none := by
    cases ignoreRules with
    | true => rfl
    | false => exact (Relation.brokenRule?_eq_none_iff a).2 (h.rules rfl)
  have hclash := (Relation.clash?_eq_none_iff t.text x.rows a).2 h.uniques
  have hreferences : (db.setTable t (some { x with rows := x.rows ++ [a] })).refersToNothing t
    x.relaxed a = false := h.references
  rw [enter, hrules]
  simp only [hclash, hreferences]
  rfl

end Database

variable {ignoreRules : Bool} {db : Database} {d : Dictionary} {k : EdgeKind}

/-- Without triggers the insertion of a name is its entry into the table. -/
theorem insertEntry_of_untriggered (ignoreRules : Bool) {x : Table Entry}
    (hx : db.table (.dictionary d) = some x) (hplain : x.triggers = []) (name : String) :
    ∃ work, insertEntry ignoreRules d name db =
      .ok (((db.enter ignoreRules (.dictionary d) x (newEntry x name)).map
        fun _ => some (newEntry x name).id).working work) := by
  rw [insertEntry, (db.occupant_eq_own_iff (.dictionary d) x).2 hx]
  simp only [hplain, blindTrigger?, firing?, List.find?_nil, Option.map_none]
  exact ⟨_, rfl⟩

/-- A name that is not there enters, if no rule forbids it. -/
theorem insertEntry_of_new {x : Table Entry} (hx : db.table (.dictionary d) = some x)
    (hplain : x.triggers = []) {name : String} (hnew : ∀ e ∈ x.rows, e.name ≠ name)
    (hrules : ignoreRules = false → isWritten name = true) :
    ∃ work, insertEntry ignoreRules d name db =
      .ok ((Effect.done (db.withRow (.dictionary d) x (newEntry x name)) 1
        (some (newEntry x name).id)).working work) := by
  have hadmits : db.Admits ignoreRules (.dictionary d) x (newEntry x name) := by
    constructor
    · intro hjudged rule hrule
      obtain rfl : rule = writtenRule "name" Entry.name := by
        simpa [relation, dictionaryRelation] using hrule
      exact hrules hjudged
    · intro u hu b hb
      simp only [relation, dictionaryRelation, uniqueRowId, List.mem_cons, List.not_mem_nil,
        or_false] at hu
      rcases hu with rfl | rfl
      · have hfree : b.id ≠ (newEntry x name).id := fun h =>
          nextId_not_mem _ (List.mem_map.2 ⟨b, hb, h⟩)
        simpa using hfree
      · simpa [newEntry] using hnew b hb
    · simp [Database.refersToNothing, relation, dictionaryRelation]
  obtain ⟨work, hinsert⟩ := insertEntry_of_untriggered ignoreRules hx hplain name
  rw [Database.enter_of_admits hadmits] at hinsert
  exact ⟨work, hinsert⟩

/-- A blank name is refused by the rule of its table. -/
theorem insertEntry_of_blank {x : Table Entry} (hx : db.table (.dictionary d) = some x)
    (hplain : x.triggers = []) {name : String} (hblank : isWritten name = false) :
    ∃ rule work, insertEntry false d name db =
      .ok ((Effect.refuse db (.checkFailed rule)).working work) := by
  have hbroken : (relation (.dictionary d) x.relaxed).brokenRule? (newEntry x name) =
      some (.checkFailed (writtenRule "name" Entry.name).text) := by
    simp [Relation.brokenRule?, relation, dictionaryRelation, writtenRule, newEntry, hblank]
  obtain ⟨work, hinsert⟩ := insertEntry_of_untriggered false hx hplain name
  simp only [Database.enter, hbroken, Bool.false_eq_true, if_false] at hinsert
  exact ⟨(writtenRule "name" Entry.name).text, work, hinsert⟩

/-! ## Edges -/

/-- The rule that keeps an edge out, if rules are judged. -/
def forbidden? (ignoreRules : Bool) (k : EdgeKind) (e : Edge) : Option Refusal :=
  if ignoreRules then none else (edgeRelation k false).brokenRule? e

/-- No rule keeps out an edge between positive ids. -/
theorem forbidden?_eq_none_iff {ignoreRules : Bool} {k : EdgeKind} {e : Edge} :
    forbidden? ignoreRules k e = none ↔ (ignoreRules = false → 0 < e.owner ∧ 0 < e.entry) := by
  cases ignoreRules <;> simp [forbidden?, Relation.brokenRule?, edgeRelation, positiveRule]

/-- Both ends of an edge are there. -/
def Database.joins (db : Database) (k : EdgeKind) (e : Edge) : Bool :=
  db.hasId (.ofOwner k.owner) e.owner && db.hasId (.dictionary k.dictionary) e.entry

/-- An edge is refused for a rule, then passed over if it is there, then refused if one of its ends
is not; otherwise it stands at the end of its table. -/
theorem enter_edge_of_plain (ignoreRules : Bool) {y : Table Edge} (hy : y.Plain) (e : Edge) :
    db.enter ignoreRules (.edges k) y e =
      match forbidden? ignoreRules k e with
      | some cause => .refuse db cause
      | none =>
        if e ∈ y.rows then .refuse db (.duplicate false k.text [k.ownerColumn, k.entryColumn])
        else if db.joins k e then .done (db.withRow (.edges k) y e) 1 ()
        else .refuse db .danglingReference := by
  obtain ⟨rows, triggers, indexes, relaxed⟩ := y
  obtain ⟨rfl, rfl⟩ : triggers = [] ∧ relaxed = false := ⟨hy.noTriggers, hy.strict⟩
  let y : Table Edge := { rows, indexes }
  have hclash : (edgeRelation k false).clash? k.text rows e =
      if e ∈ rows then some (.duplicate false k.text [k.ownerColumn, k.entryColumn]) else none := by
    by_cases hmem : e ∈ rows <;> simp [Relation.clash?, edgeRelation, hmem]
  have hends : (db.withRow (.edges k) y e).refersToNothing (.edges k) false e =
      !db.joins k e := by
    rw [Database.joins, ← Database.hasId_withRow_edges db k y e (ofOwner_ne_edges k.owner k),
      ← Database.hasId_withRow_edges (t := .dictionary k.dictionary) db k y e (by simp)]
    simp [Database.refersToNothing, relation, edgeRelation, Bool.or_comm]
  show (match forbidden? ignoreRules k e with
    | some cause => Effect.refuse db cause
    | none =>
      match (edgeRelation k false).clash? k.text rows e with
      | some cause => .refuse db cause
      | none =>
        if (db.withRow (.edges k) y e).refersToNothing (.edges k) false e then
          .undo db 0 .danglingReference
        else .done (db.withRow (.edges k) y e) 1 ()) = _
  rw [hclash, hends]
  cases forbidden? ignoreRules k e with
  | some cause => rfl
  | none =>
    by_cases hmem : e ∈ rows
    · simp only [if_pos hmem]
    · simp only [if_neg hmem]
      cases db.joins k e <;> rfl

theorem insertEdge_of_plain (ignoreRules : Bool) (h : db.Plain) {y : Table Edge}
    (hy : db.table (.edges k) = some y) (e : Edge) :
    ∃ work, insertEdge ignoreRules k e db =
      .ok ((db.enter ignoreRules (.edges k) y e).working work) := by
  have hquiet : firing? y.triggers (shownEdge k e) = none := by
    simp [firing?, (h.of_table hy).noTriggers]
  simpa only [hquiet] using insertEdge_eq _ (h.edgeObstacle? k) hy e

/-- The edges of an owner go, and the answer is how many there were. -/
theorem clearEdges_of_plain (h : db.Plain) {y : Table Edge} (hy : db.table (.edges k) = some y)
    (owner : Int) :
    ∃ e, clearEdges k owner db = .ok e ∧
      e.answer = .ok (y.rows.filter fun e => e.owner == owner).length ∧
      e.tables = db.setTable (.edges k)
        (some { y with rows := y.rows.filter fun e => !(e.owner == owner) }) := by
  simp only [clearEdges, (db.use_eq_ok_iff (.edges k) _ y).2 hy,
    h.lostReference? (.edges k) fun _ => true]
  refine ⟨_, rfl, ?_, ?_⟩
  · show Except.ok (((db.rows (.edges k)).filter _).length) = _
    rw [Database.rows_of_table hy]
  · show db.setRows (.edges k) ((db.rows (.edges k)).filter _) = _
    rw [Database.setRows, hy, Database.rows_of_table hy]

end JobBoard.Store
