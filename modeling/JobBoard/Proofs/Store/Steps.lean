import JobBoard.Proofs.Store.Insertion
import JobBoard.Store.Remove
import Mathlib.Logic.Relation

/-!
# Elementary changes of the tables

All that calls of the board ever do to the tables is a chain of three elementary changes: a new name
enters a dictionary, a new edge enters a join table, the edges of one owner go (`Step`). Each change
stays within one area of the tables. An invariant of the tables is therefore proved once, by cases
on a step, and outside its areas a chain of changes leaves everything as it was
(`Steps.confined`).
-/

set_option autoImplicit false

namespace JobBoard.Store

/-- A part of the tables that one change is confined to: a dictionary, or the edges of one owner. -/
inductive Area where
  | entries (d : Dictionary)
  | edges (k : EdgeKind) (owner : Int)
  deriving DecidableEq, Repr

/-- The table that an area lies in. -/
def Area.table : Area → TableName
  | .entries d => .dictionary d
  | .edges k _ => .edges k

namespace Database

/-- One elementary change. -/
inductive Step (ignoreRules : Bool) : Area → Database → Database → Prop where
  | enter {db : Database} {d : Dictionary} {x : Table Entry} {name : String}
      (there : db.table (.dictionary d) = some x)
      (new : ∀ e ∈ x.rows, e.name ≠ name)
      (written : ignoreRules = false → isWritten name = true) :
      Step ignoreRules (.entries d) db (db.withRow (.dictionary d) x (newEntry x name))
  | attach {db : Database} {k : EdgeKind} {owner id : Int} {x : Table Edge}
      (there : db.table (.edges k) = some x)
      (admitted : db.AdmitsEdge ignoreRules k x ⟨owner, id⟩) :
      Step ignoreRules (.edges k owner) db (db.withRow (.edges k) x ⟨owner, id⟩)
  | clear {db : Database} {k : EdgeKind} {owner : Int} :
      Step ignoreRules (.edges k owner) db (db.removeEdges k fun e => e.owner == owner).tables

/-- Changes one after the other, each in one of some areas. -/
def Steps (ignoreRules : Bool) (areas : List Area) : Database → Database → Prop :=
  Relation.ReflTransGen fun a b => ∃ area ∈ areas, Step ignoreRules area a b

theorem Steps.single {ignoreRules : Bool} {areas : List Area} {area : Area} {a b : Database}
    (hmem : area ∈ areas) (h : Step ignoreRules area a b) : Steps ignoreRules areas a b :=
  Relation.ReflTransGen.single ⟨area, hmem, h⟩

theorem Steps.mono {ignoreRules : Bool} {areas more : List Area} (hsub : areas ⊆ more)
    {a b : Database} (h : Steps ignoreRules areas a b) : Steps ignoreRules more a b := by
  refine Relation.ReflTransGen.mono ?_ a b h
  rintro x y ⟨area, hmem, hstep⟩
  exact ⟨area, hsub hmem, hstep⟩

/-- What every change preserves, a chain of changes preserves. -/
theorem Steps.preserves {ignoreRules : Bool} {areas : List Area} {P : Database → Prop}
    (hstep : ∀ area a b, Step ignoreRules area a b → P a → P b) {a b : Database}
    (h : Steps ignoreRules areas a b) (ha : P a) : P b := by
  induction h with
  | refl => exact ha
  | tail _ hbc ih =>
    obtain ⟨area, -, hbc⟩ := hbc
    exact hstep area _ _ hbc ih

/-! ## Outside the areas -/

/-- A join table without the edges of some areas. -/
def outside (areas : List Area) (k : EdgeKind) (y : Table Edge) : Table Edge :=
  { y with rows := y.rows.filter fun e => .edges k e.owner ∉ areas }

/-- A database after changes that are confined to some areas: tables that none of them lies in are
the same, and join tables are the same but for the edges of the areas. -/
structure Confined (areas : List Area) (db db' : Database) : Prop where
  tables : ∀ t, (∀ area ∈ areas, area.table ≠ t) → db'.table t = db.table t
  edges : ∀ k, (db'.table (.edges k)).map (outside areas k) =
    (db.table (.edges k)).map (outside areas k)
  version : db'.version = db.version
  revision : db'.revision = db.revision
  foreign : db'.foreign = db.foreign

theorem Confined.refl (areas : List Area) (db : Database) : Confined areas db db :=
  ⟨fun _ _ => rfl, fun _ => rfl, rfl, rfl, rfl⟩

theorem Confined.trans {areas : List Area} {a b c : Database} (h : Confined areas a b)
    (h' : Confined areas b c) : Confined areas a c where
  tables t ht := (h'.tables t ht).trans (h.tables t ht)
  edges k := (h'.edges k).trans (h.edges k)
  version := h'.version.trans h.version
  revision := h'.revision.trans h.revision
  foreign := h'.foreign.trans h.foreign

end Database

/-! ## The writes of the board -/

theorem insertEntry_step {ignoreRules : Bool} {d : Dictionary} {name : String} {db : Database}
    {e : Effect (Option Int)} (h : insertEntry ignoreRules d name db = .ok e) :
    e.tables = db ∨ db.Step ignoreRules (.entries d) e.tables := by
  obtain ⟨x, hx, ⟨htables, -, -⟩ | ⟨hnew, hwritten, _, -, rfl⟩⟩ := insertEntry_cases h
  · exact .inl htables
  · exact .inr (.enter hx hnew hwritten)

/-- An owner is cleared whole, if the statement runs at all. -/
theorem clearEdges_eq {k : EdgeKind} {owner : Int} {db : Database} {e : Effect Nat}
    (h : clearEdges k owner db = .ok e) :
    let r := db.removeEdges k fun e => e.owner == owner
    ∃ x, db.table (.edges k) = some x ∧
      e = (Effect.done r.tables r.rows r.rows).working (clearingWork x owner r.rows) := by
  unfold clearEdges at h
  split at h
  · simp at h
  · rename_i x hx
    split at h
    · simp at h
    · exact ⟨x, (db.use_eq_ok_iff _ _ x).1 hx, (Except.ok.inj h).symm⟩

theorem clearEdges_step {ignoreRules : Bool} {k : EdgeKind} {owner : Int} {db : Database}
    {e : Effect Nat} (h : clearEdges k owner db = .ok e) :
    db.Step ignoreRules (.edges k owner) e.tables := by
  obtain ⟨x, -, rfl⟩ := clearEdges_eq h
  exact .clear

end JobBoard.Store
