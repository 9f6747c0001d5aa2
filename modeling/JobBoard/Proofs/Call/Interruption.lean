import JobBoard.Call.Edges
import JobBoard.Call.Search
import JobBoard.Proofs.Search.Filters
import JobBoard.Proofs.Store.Insertion
import JobBoard.Proofs.Store.Transactions

/-!
# Refusals that are no interruptions

A statement is interrupted by whoever looks at a token while it runs, and by nobody else: no
question of the board and no change that it makes is refused as interrupted by the tables
(`Query.Uninterrupted`, `Update.Uninterrupted`), nor by the connection around it.
-/

set_option autoImplicit false

namespace JobBoard

open Store

variable {α : Type}

/-- No tables refuse a question as interrupted. -/
def Store.Query.Uninterrupted (q : Query α) : Prop :=
  ∀ db, q.run db ≠ .error .interrupted ∧ q.run db ≠ .ok (.error .interrupted)

/-- No tables refuse a change as interrupted. -/
def Store.Update.Uninterrupted (u : Update α) : Prop :=
  ∀ db, u db ≠ .error .interrupted ∧ ∀ e, u db = .ok e → e.answer ≠ .error .interrupted

/-! ## Questions -/

theorem use_ne_interrupted (db : Database) (t : TableName) (column : String) :
    db.use t column ≠ .error .interrupted := by
  unfold Database.use
  split <;> simp

theorem uninterrupted_ofEntries (d : Dictionary) (n : Nat) (f : List Entry → α) :
    (ofEntries d n f).Uninterrupted := by
  intro db
  have huse := use_ne_interrupted db (.dictionary d) "name"
  rw [ofEntries]
  cases h : db.use (.dictionary d) "name" with
  | error cause => simpa [Except.map, h] using huse
  | ok x => simp [Except.map, h]

theorem joinedEntries_ne_interrupted (k : EdgeKind) (owner : Int) (db : Database) :
    joinedEntries k owner db ≠ .error .interrupted := by
  unfold joinedEntries
  split <;> simp

theorem uninterrupted_entriesOfOwner (k : EdgeKind) (owner : Int) :
    (entriesOfOwner k owner).Uninterrupted := by
  intro db
  have hjoined := joinedEntries_ne_interrupted k owner db
  simp only [entriesOfOwner, Query.of]
  cases h : joinedEntries k owner db with
  | error cause => simpa [Except.map, h] using hjoined
  | ok joined => simp [Except.map]

namespace Search

theorem truth_ne_interrupted (arguments : List Argument) (j : Joined) (c : Condition) :
    c.truth arguments j ≠ .error .interrupted := by
  cases c with
  | among column first count => simp [Condition.truth]
  | salaryAtLeast slot => simp [Condition.truth]
  | anyLike first =>
    have hstep : ∀ sofar p, likeStep arguments j sofar p ≠ .error .interrupted := by
      intro sofar p
      unfold likeStep
      split
      · split
        · simp
        · split <;> simp
      · simp
    have hfold : ∀ ps sofar, List.foldlM (likeStep arguments j) sofar ps ≠ .error .interrupted := by
      intro ps
      induction ps with
      | nil => simp [pure, Except.pure]
      | cons p rest ih =>
        intro sofar
        rw [List.foldlM_cons]
        cases h : likeStep arguments j sofar p with
        | error cause => simpa [bind, Except.bind, h] using hstep sofar p
        | ok truth => exact ih truth
    rw [truth_anyLike]
    exact hfold _ _

theorem satisfies_ne_interrupted (arguments : List Argument) (j : Joined) (cs : List Condition) :
    satisfies arguments j cs ≠ .error .interrupted := by
  induction cs with
  | nil => simp [satisfies]
  | cons c rest ih =>
    have hc := truth_ne_interrupted arguments j c
    rw [satisfies]
    split
    · rename_i cause hcause
      simpa [hcause] using hc
    · split
      · exact ih
      · simp

theorem selectRows_ne_interrupted (q : Composed) (js : List Joined) :
    selectRows q js ≠ .error .interrupted := by
  induction js with
  | nil => simp [selectRows]
  | cons j rest ih =>
    have hj := satisfies_ne_interrupted q.arguments j (judged q.statement.conditions)
    rw [selectRows]
    split
    · rename_i cause hcause
      simpa [hcause] using hj
    · split
      · rename_i cause hcause
        simpa [hcause] using ih
      · simp

theorem uninterrupted_rows (q : Composed) (foldsCase : Bool) :
    (q.rows foldsCase).Uninterrupted := by
  intro db
  have hsource : q.source foldsCase db ≠ .error .interrupted := by
    unfold Composed.source
    split <;> try simp
    split <;> simp
  simp only [Composed.rows]
  cases hrows : q.source foldsCase db with
  | error cause => simpa [Except.map, hrows] using hsource
  | ok rows =>
    have hselect := selectRows_ne_interrupted q rows
    cases h : selectRows q rows with
    | error cause => simpa [Except.map, h] using hselect
    | ok kept => simp [Except.map, h]

end Search

/-! ## Changes -/

namespace Store

theorem lostReference?_ne_interrupted (db : Database) (t : TableName) (p : String → Bool) :
    db.lostReference? t p ≠ some .interrupted := by
  intro h
  obtain ⟨target, h | h⟩ := lostReference?_cases h
  · exact nomatch h
  · exact nomatch h

theorem blindTrigger?_ne_interrupted (columns : List String) (triggers : List Trigger) :
    blindTrigger? columns triggers ≠ some .interrupted := by
  simp [blindTrigger?]

theorem edgeObstacle?_ne_interrupted (db : Database) (k : EdgeKind) :
    db.edgeObstacle? k ≠ some .interrupted := by
  unfold Database.edgeObstacle?
  split
  · simp
  · simp
  · intro h
    rcases Option.or_eq_some_iff.1 h with h | ⟨-, h⟩
    · exact blindTrigger?_ne_interrupted _ _ h
    · exact lostReference?_ne_interrupted _ _ _ h

theorem react_ne_interrupted (db : Database) (nothing : α) (reaction : Reaction) :
    (react db nothing reaction).answer ≠ .error .interrupted := by
  cases reaction <;> simp [react, Effect.done, Effect.refuse]

theorem enter_ne_interrupted (db : Database) (ignoreRules : Bool) (t : TableName)
    (x : Table t.Row) (a : t.Row) : (db.enter ignoreRules t x a).answer ≠ .error .interrupted := by
  have hrule : (relation t x.relaxed).brokenRule? a ≠ some .interrupted := by
    simp [Relation.brokenRule?]
  have hclash : (relation t x.relaxed).clash? t.text x.rows a ≠ some .interrupted := by
    simp [Relation.clash?]
  unfold Database.enter
  cases hif : (if ignoreRules then none else (relation t x.relaxed).brokenRule? a) with
  | some cause =>
    cases ignoreRules with
    | true => simp at hif
    | false =>
      have hcause : (relation t x.relaxed).brokenRule? a = some cause := by simpa using hif
      simpa [hif, Effect.refuse, hcause] using hrule
  | none =>
    cases hfound : (relation t x.relaxed).clash? t.text x.rows a with
    | some cause => simpa [hif, hfound, Effect.refuse] using hclash
    | none =>
      simp only [hif, hfound]
      split <;> simp [Effect.undo, Effect.done]

theorem uninterrupted_insertEntry (ignoreRules : Bool) (d : Dictionary) (name : String) :
    (insertEntry ignoreRules d name).Uninterrupted := by
  intro db
  unfold insertEntry
  split
  · simp
  · simp
  · rename_i x _
    split
    · rename_i cause hcause
      have hblind :=
        blindTrigger?_ne_interrupted (dictionaryRelation.columns.map Column.name) x.triggers
      exact ⟨by simpa [hcause] using hblind, by simp⟩
    · dsimp only
      split
      · rename_i reaction _
        exact ⟨by simp, fun e he => Except.ok.inj he ▸ react_ne_interrupted db none reaction⟩
      · refine ⟨by simp, fun e he => ?_⟩
        rw [← Except.ok.inj he]
        have henter := enter_ne_interrupted db ignoreRules (.dictionary d) x
          ⟨nextId (x.rows.map Entry.id), name⟩
        cases h : (db.enter ignoreRules (.dictionary d) x
          ⟨nextId (x.rows.map Entry.id), name⟩).answer with
        | error cause => simpa [Effect.map, Except.map, h] using henter
        | ok u => simp [Effect.map, Except.map, h]

theorem uninterrupted_insertEdge (ignoreRules : Bool) (k : EdgeKind) (e : Edge) :
    (insertEdge ignoreRules k e).Uninterrupted := by
  intro db
  unfold insertEdge
  split
  · rename_i cause hcause
    have hobstacle := edgeObstacle?_ne_interrupted db k
    exact ⟨by simpa [hcause] using hobstacle, by simp⟩
  · split
    · simp
    · simp only
      split
      · exact ⟨by simp, fun e he => Except.ok.inj he ▸ react_ne_interrupted db () _⟩
      · exact ⟨by simp, fun e he => Except.ok.inj he ▸ enter_ne_interrupted db ignoreRules _ _ _⟩

theorem uninterrupted_clearEdges (k : EdgeKind) (owner : Int) :
    (clearEdges k owner).Uninterrupted := by
  intro db
  have huse := use_ne_interrupted db (.edges k) k.ownerColumn
  have hlost := lostReference?_ne_interrupted db (.edges k) fun _ => true
  unfold clearEdges
  split
  · rename_i cause hcause
    exact ⟨by simpa [hcause] using huse, by simp⟩
  · split
    · rename_i cause hcause
      exact ⟨by simpa [hcause] using hlost, by simp⟩
    · refine ⟨by simp, fun e he => ?_⟩
      rw [← Except.ok.inj he]
      simp [Effect.done]

/-! ## Connections -/

namespace Connection

theorem Hindrance.ne_interrupted {cause : Refusal} (h : Hindrance cause) :
    cause ≠ .interrupted := by
  cases h <;> simp

theorem read_ne_interrupted (c : Connection) {q : Query α} (hq : q.Uninterrupted) :
    (c.read q).1 ≠ .error .interrupted := by
  unfold read
  split
  · simp
  · rcases c.schema_cases with ⟨cause, hschema, hcause⟩ | ⟨db, hschema, -⟩
    · simpa [hschema] using hcause.ne_interrupted
    · obtain ⟨hcompiled, hran⟩ := hq db
      simp only [hschema]
      cases hrun : q.run db with
      | error cause => simpa [hrun] using hcompiled
      | ok answer =>
        simp only
        split
        · simp
        · simpa [hrun] using hran

theorem finishAlone_ne_interrupted (handsBack : α → Bool) {e : Effect α}
    (he : e.answer ≠ .error .interrupted) (c : Connection) :
    (c.finishAlone handsBack e).1 ≠ .error .interrupted := by
  rcases c.finishAlone_cases handsBack e with
    ⟨-, cause, hcause, hwhy⟩ | ⟨-, a, -, -, heq⟩ | ⟨-, -, a, -, heq⟩
  · rw [hcause]
    rcases hwhy with hwhy | hwhy
    · simpa using hwhy.ne_interrupted
    · simpa [hwhy] using he
  · simp [heq]
  · simp [heq]

theorem write_ne_interrupted (handsBack : α → Bool) (c : Connection) {u : Update α}
    (hu : u.Uninterrupted) : (c.write handsBack u).answer ≠ .error .interrupted := by
  unfold write
  rcases c.schema_cases with ⟨cause, hschema, hcause⟩ | ⟨db, hschema, -⟩
  · simpa [hschema, Except.bind] using hcause.ne_interrupted
  · obtain ⟨hcompiled, hran⟩ := hu db
    cases hrun : u db with
    | error cause => simpa [hschema, Except.bind, hrun] using hcompiled
    | ok e =>
      rcases c.writeObstacle?_cases with ⟨cause, hobstacle, hcause⟩ | ⟨hobstacle, -⟩
      · simpa [hschema, Except.bind, hrun, hobstacle] using hcause.ne_interrupted
      · simp only [hschema, Except.bind, hrun, hobstacle]
        split
        · exact finishAlone_ne_interrupted handsBack (hran e hrun) c
        · exact hran e hrun

theorem begin_ne_interrupted (c : Connection) : (c.begin .immediate).1 ≠ .error .interrupted := by
  unfold begin
  simp only
  split
  · simp
  · split
    · unfold beginReading
      split
      · simp
      · split <;> simp
    · rcases c.writeObstacle?_cases with ⟨cause, hobstacle, hcause⟩ | ⟨hobstacle, -⟩
      · simpa [hobstacle] using hcause.ne_interrupted
      · simp only [hobstacle, beginWriting]
        split
        · simp
        · split <;> simp

theorem commit_ne_interrupted (c : Connection) : c.commit.1 ≠ .error .interrupted := by
  unfold commit
  split
  · simp
  · split
    · split
      · simp
      · split <;> simp
    · simp

end Connection

end Store

end JobBoard
