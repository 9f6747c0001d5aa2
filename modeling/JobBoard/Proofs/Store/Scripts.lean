import JobBoard.Proofs.Store.Tables
import JobBoard.Store.Schema
import Mathlib.Data.List.Perm.Basic
import Mathlib.Data.List.Nodup

/-!
# What the scripts of the schema add

A statement of a script runs exactly if its name is free, and then the database has one object more
(`runStep_cases`). The names that the scripts create are all different, so a run of scripts succeeds
exactly if all of them are free at its start (`runScripts_cases`); the database then has what the
statements create besides what it had (`Database.Extends`).
-/

set_option autoImplicit false

namespace JobBoard.Store

open scoped List

/-! ## What a statement creates -/

namespace SchemaStep

/-- The name of what a statement creates. -/
def name : SchemaStep → String
  | createTable t => t.text
  | createIndex _ name => name

/-- How a listing of the schema shows what a statement creates. -/
def object : SchemaStep → String
  | createTable t => "table " ++ t.text
  | createIndex _ name => "index " ++ name

/-- The name of the table that a statement creates, if it creates one. -/
def tableName? : SchemaStep → Option String
  | createTable t => some t.text
  | createIndex _ _ => none

/-- The name of the index that a statement creates, if it creates one. -/
def indexName? : SchemaStep → Option String
  | createTable _ => none
  | createIndex _ name => some name

/-- What a statement makes of one table. -/
def shape (t : TableName) (x : Option (Table t.Row)) : SchemaStep → Option (Table t.Row)
  | createTable u => if u = t then some {} else x
  | createIndex u name =>
    if u = t then x.map fun y => { y with indexes := y.indexes ++ [name] } else x

/-- Every index is on a table that is there: one of some tables, or one created before it. -/
def Grounded : List TableName → List SchemaStep → Bool
  | _, [] => true
  | there, createTable t :: rest => Grounded (t :: there) rest
  | there, createIndex t _ :: rest => there.contains t && Grounded there rest

/-- Two statements create things of different names. -/
def Differ (s s' : SchemaStep) : Prop := Database.sameName s'.name s.name = false

instance (s s' : SchemaStep) : Decidable (s.Differ s') := inferInstanceAs (Decidable (_ = _))

end SchemaStep

/-- The scripts of a list above a version. -/
def scriptsAbove (above : Int) (list : List Script) : List Script :=
  list.filter fun s => above < s.version

/-- The version that a list of scripts brings a database to. -/
def versionAfter (version : Int) (list : List Script) : Int :=
  list.foldl (fun _ s => s.version) version

namespace Database

/-- Neither a table nor an index goes by a name. -/
def IsFree (db : Database) (name : String) : Prop :=
  db.hasTableNamed name = false ∧ db.hasIndexNamed name = false

instance (db : Database) (name : String) : Decidable (db.IsFree name) :=
  inferInstanceAs (Decidable (_ ∧ _))

/-- A database has what some statements create, besides what another has. -/
structure Extends (steps : List SchemaStep) (db db' : Database) : Prop where
  tables : ∀ t, db'.table t = steps.foldl (SchemaStep.shape t) (db.table t)
  foreign : db'.foreign = db.foreign
  tableNames : db'.tableNames.Perm (db.tableNames ++ steps.filterMap SchemaStep.tableName?)
  indexNames : db'.indexNames.Perm (db.indexNames ++ steps.filterMap SchemaStep.indexName?)

variable {db db' db'' : Database} {steps more : List SchemaStep}

theorem Extends.trans (h : Extends steps db db') (h' : Extends more db' db'') :
    Extends (steps ++ more) db db'' where
  tables t := by rw [h'.tables, h.tables, List.foldl_append]
  foreign := h'.foreign.trans h.foreign
  tableNames := by
    rw [List.filterMap_append, ← List.append_assoc]
    exact h'.tableNames.trans (h.tableNames.append_right _)
  indexNames := by
    rw [List.filterMap_append, ← List.append_assoc]
    exact h'.indexNames.trans (h.indexNames.append_right _)

/-- What decides about names are the tables and what is foreign. -/
theorem Extends.of_same (htables : ∀ t, db'.table t = db.table t)
    (hforeign : db'.foreign = db.foreign) : Extends [] db db' where
  tables := htables
  foreign := hforeign
  tableNames := by
    have hhas : db'.has = db.has := funext fun t => by rw [has, has, htables]
    simp [Database.tableNames, hhas, hforeign]
  indexNames := by simp [Database.indexNames, htables, hforeign]

/-- The version is not part of the schema. -/
theorem Extends.setVersion (h : Extends steps db db') (v : Int) :
    Extends steps db { db' with version := v } :=
  ⟨h.tables, h.foreign, h.tableNames, h.indexNames⟩

theorem Extends.refl (db : Database) : Extends [] db db := .of_same (fun _ => rfl) rfl

/-- A listing of the schema shows what there was and what the statements create. -/
theorem Extends.objects (h : Extends steps db db') :
    db'.objects.Perm (db.objects ++ steps.map SchemaStep.object) := by
  have hsplit : ∀ steps : List SchemaStep, (steps.map SchemaStep.object).Perm
      ((steps.filterMap SchemaStep.tableName?).map ("table " ++ ·) ++
        (steps.filterMap SchemaStep.indexName?).map ("index " ++ ·)) := by
    intro steps
    induction steps with
    | nil => exact .nil
    | cons s rest ih =>
      cases s with
      | createTable t => exact ih.cons _
      | createIndex t name => exact (ih.cons _).trans List.perm_middle.symm
  have hlisted : ∀ db : Database, db.objects.Perm
      (db.tableNames.map ("table " ++ ·) ++ db.indexNames.map ("index " ++ ·)) :=
    fun db => List.mergeSort_perm _ _
  have htables := h.tableNames.map ("table " ++ ·)
  have hindexes := h.indexNames.map ("index " ++ ·)
  rw [List.map_append] at htables hindexes
  -- old and new tables and indexes, put in order
  calc db'.objects
      _ ~ _ := hlisted db'
      _ ~ _ := htables.append hindexes
      _ ~ (db.tableNames.map ("table " ++ ·) ++ db.indexNames.map ("index " ++ ·)) ++
          ((steps.filterMap SchemaStep.tableName?).map ("table " ++ ·) ++
            (steps.filterMap SchemaStep.indexName?).map ("index " ++ ·)) := by
        simp only [List.append_assoc]
        exact List.Perm.append_left _ (List.perm_append_comm_assoc _ _ _)
      _ ~ _ := (hlisted db).symm.append (hsplit steps).symm

end Database

/-! ## One statement -/

theorem nodup_all : TableName.all.Nodup := by decide

/-- If one element of a list gives more and the others what they gave, there is that more in all. -/
theorem flatMap_append_perm {α β : Type} {l : List α} (hl : l.Nodup) {a : α} (ha : a ∈ l)
    {f g : α → List β} {more : List β} (hself : g a = f a ++ more)
    (hother : ∀ c, c ≠ a → g c = f c) (tail : List β) :
    l.flatMap g ++ tail ~ l.flatMap f ++ tail ++ more := by
  induction l with
  | nil => cases ha
  | cons c rest ih =>
    rw [List.flatMap_cons, List.flatMap_cons]
    obtain ⟨hnew, hrest⟩ := List.nodup_cons.1 hl
    rcases List.mem_cons.1 ha with rfl | ha
    · have hsame : rest.flatMap g = rest.flatMap f :=
        List.flatMap_congr fun c hc => hother c (ne_of_mem_of_not_mem hc hnew)
      simp only [hself, hsame, List.append_assoc]
      have hswap : more ++ (rest.flatMap f ++ tail) ~ rest.flatMap f ++ tail ++ more :=
        List.perm_append_comm
      rw [List.append_assoc] at hswap
      exact hswap.append_left _
    · simp only [hother c (ne_of_mem_of_not_mem ha hnew).symm, List.append_assoc]
      have hin := ih hrest ha
      rw [List.append_assoc] at hin
      exact hin.append_left _

theorem tableNames_eq_flatMap (db : Database) : db.tableNames =
    (TableName.all.flatMap fun t => if db.has t then [t.text] else []) ++
      (db.foreign.filter (!·.isIndex)).map Foreign.name := by
  have hlisted : ∀ l : List TableName, (l.filter db.has).map TableName.text =
      l.flatMap fun t => if db.has t then [t.text] else [] := by
    intro l
    induction l with
    | nil => rfl
    | cons t rest ih => cases h : db.has t <;> simp [h, ih]
  rw [Database.tableNames, hlisted]

namespace Database

variable {db db' : Database}

theorem mem_tableNames {t : TableName} (h : db.has t = true) : t.text ∈ db.tableNames :=
  List.mem_append_left _ (List.mem_map_of_mem (List.mem_filter.2 ⟨mem_all t, h⟩))

theorem sameName_self (name : String) : sameName name name = true := by simp [sameName]

/-- A table whose name is free does not exist. -/
theorem IsFree.table_eq_none {t : TableName} (h : db.IsFree t.text) : db.table t = none := by
  by_contra hthere
  have hhas : db.has t = true := by simpa [has, Option.isSome_iff_ne_none] using hthere
  have := List.any_eq_false.1 h.1 _ (mem_tableNames hhas)
  exact this (sameName_self _)

/-- What is created takes its name, and no other. -/
theorem Extends.isFree_iff {steps : List SchemaStep} (h : Extends steps db db') (name : String) :
    db'.IsFree name ↔ db.IsFree name ∧ ∀ s ∈ steps, sameName name s.name = false := by
  have hnames : ∀ s : SchemaStep, sameName name s.name = false ↔
      (∀ n, s.tableName? = some n → sameName name n = false) ∧
        ∀ n, s.indexName? = some n → sameName name n = false := by
    intro s
    cases s <;> simp [SchemaStep.name, SchemaStep.tableName?, SchemaStep.indexName?]
  simp only [IsFree, hasTableNamed, hasIndexNamed, List.any_eq_false, h.tableNames.mem_iff,
    h.indexNames.mem_iff, List.mem_append, List.mem_filterMap, Bool.not_eq_true]
  constructor
  · rintro ⟨htables, hindexes⟩
    refine ⟨⟨fun n hn => htables n (.inl hn), fun n hn => hindexes n (.inl hn)⟩, fun s hs => ?_⟩
    exact (hnames s).2 ⟨fun n hn => htables n (.inr ⟨s, hs, hn⟩),
      fun n hn => hindexes n (.inr ⟨s, hs, hn⟩)⟩
  · rintro ⟨⟨htables, hindexes⟩, hcreated⟩
    constructor
    · rintro n (hn | ⟨s, hs, hn⟩)
      · exact htables n hn
      · exact ((hnames s).1 (hcreated s hs)).1 n hn
    · rintro n (hn | ⟨s, hs, hn⟩)
      · exact hindexes n hn
      · exact ((hnames s).1 (hcreated s hs)).2 n hn

theorem tableObstacle?_eq_none_iff (db : Database) (name : String) :
    db.tableObstacle? name = none ↔ db.IsFree name := by
  unfold tableObstacle? IsFree
  cases db.hasTableNamed name <;> cases db.hasIndexNamed name <;> simp

theorem indexObstacle?_eq_none_iff (db : Database) (name : String) :
    db.indexObstacle? name = none ↔ db.IsFree name := by
  unfold indexObstacle? IsFree
  cases db.hasTableNamed name <;> cases db.hasIndexNamed name <;> simp

/-- A statement changes one table: it makes it, or gives it an index. -/
theorem Extends.of_setTable {t : TableName} {y : Table t.Row} {s : SchemaStep}
    (hself : s.shape t (db.table t) = some y)
    (hother : ∀ u, u ≠ t → s.shape u (db.table u) = db.table u)
    (htables :
      [t.text] = (if db.has t then [t.text] else []) ++ [s].filterMap SchemaStep.tableName?)
    (hindexes : y.indexes = ((db.table t).map Table.indexes).getD [] ++
      [s].filterMap SchemaStep.indexName?) :
    Extends [s] db (db.setTable t (some y)).revised := by
  generalize hdb' : (db.setTable t (some y)).revised = db'
  have htable : db'.table t = some y := by
    rw [← hdb']
    exact table_setTable_self db t _
  have hsame : ∀ u, u ≠ t → db'.table u = db.table u := by
    intro u hu
    rw [← hdb']
    exact table_setTable_of_ne db _ hu
  have hforeign : db'.foreign = db.foreign := by
    rw [← hdb']
    cases t <;> rfl
  refine { tables := fun u => ?_, foreign := hforeign, tableNames := ?_, indexNames := ?_ }
  · by_cases hu : u = t
    · subst hu
      exact htable.trans hself.symm
    · exact (hsame u hu).trans (hother u hu).symm
  · rw [tableNames_eq_flatMap, tableNames_eq_flatMap, hforeign]
    refine flatMap_append_perm nodup_all (mem_all t) ?_ (fun u hu => ?_) _
    · simpa [has, htable] using htables
    · rw [show db'.has u = db.has u by rw [has, has, hsame u hu]]
  · rw [Database.indexNames, Database.indexNames, hforeign]
    refine flatMap_append_perm nodup_all (mem_all t) ?_ (fun u hu => ?_) _
    · simpa [htable] using hindexes
    · rw [hsame u hu]

/-- A table that is created stands beside all others. -/
theorem extends_createTable {t : TableName} (hfree : db.IsFree t.text) :
    Extends [.createTable t] db (db.setTable t (some {})).revised := by
  have hnone := hfree.table_eq_none
  refine .of_setTable ?_ (fun u hu => ?_) ?_ ?_
  · simp [SchemaStep.shape]
  · simp [SchemaStep.shape, hu.symm]
  · simp [has, hnone, SchemaStep.tableName?]
  · simp [hnone, SchemaStep.indexName?]

/-- An index that is created is one more of its table. -/
theorem extends_createIndex {t : TableName} {x : Table t.Row} (hx : db.table t = some x)
    (name : String) : Extends [.createIndex t name] db
      (db.setTable t (some { x with indexes := x.indexes ++ [name] })).revised := by
  refine .of_setTable ?_ (fun u hu => ?_) ?_ ?_
  · simp [SchemaStep.shape, hx]
  · simp [SchemaStep.shape, hu.symm]
  · simp [has, hx, SchemaStep.tableName?]
  · simp [hx, SchemaStep.indexName?]

/-- A statement runs exactly if the name of what it creates is free. -/
theorem runStep_cases {s : SchemaStep} {there : List TableName} {rest : List SchemaStep}
    (hgrounded : SchemaStep.Grounded there (s :: rest) = true)
    (hthere : ∀ t ∈ there, db.has t = true) :
    (db.IsFree s.name ∧ ∃ db', db.runStep s = .ok db' ∧ Extends [s] db db' ∧
        db'.version = db.version) ∨
      (¬ db.IsFree s.name ∧ ∃ cause, db.runStep s = .error cause) := by
  cases s with
  | createTable t =>
    have hiff := db.tableObstacle?_eq_none_iff t.text
    cases hobstacle : db.tableObstacle? t.text with
    | none =>
      have hfree := hiff.1 hobstacle
      refine .inl ⟨hfree, _, by simp [runStep, hobstacle], extends_createTable hfree, ?_⟩
      cases t <;> rfl
    | some cause =>
      exact .inr ⟨fun hfree => by simp [hiff.2 hfree] at hobstacle, cause,
        by simp [runStep, hobstacle]⟩
  | createIndex t name =>
    have hiff := db.indexObstacle?_eq_none_iff name
    cases hobstacle : db.indexObstacle? name with
    | none =>
      have hhas : db.has t = true := hthere t (by simp_all [SchemaStep.Grounded])
      obtain ⟨x, hx⟩ := Option.isSome_iff_exists.1 hhas
      refine .inl ⟨hiff.1 hobstacle, _, by simp [runStep, hobstacle, hx],
        extends_createIndex hx name, ?_⟩
      cases t <;> rfl
    | some cause =>
      exact .inr ⟨fun hfree => by simp [hiff.2 hfree] at hobstacle, cause,
        by simp [runStep, hobstacle]⟩

/-! ## All statements of a script -/

theorem isSome_foldl_shape {t : TableName} (steps : List SchemaStep) {x : Option (Table t.Row)}
    (hx : x.isSome = true) : (steps.foldl (SchemaStep.shape t) x).isSome = true := by
  induction steps generalizing x with
  | nil => exact hx
  | cons s rest ih =>
    refine ih ?_
    cases s <;> simp only [SchemaStep.shape] <;> split <;> simp [hx]

/-- Statements never take a table away. -/
theorem Extends.has {steps : List SchemaStep} (h : Extends steps db db') {t : TableName}
    (ht : db.has t = true) : db'.has t = true := by
  rw [Database.has, h.tables]
  exact isSome_foldl_shape steps ht

/-- A table that a statement creates is there. -/
theorem Extends.has_created {t : TableName} (h : Extends [.createTable t] db db') :
    db'.has t = true := by
  simp [Database.has, h.tables, SchemaStep.shape]

/-- A sequence of statements of different names runs exactly if all those names are free. -/
theorem runSteps_cases (db : Database) {steps : List SchemaStep} {there : List TableName}
    (hgrounded : SchemaStep.Grounded there steps = true)
    (hdiffer : steps.Pairwise SchemaStep.Differ)
    (hthere : ∀ t ∈ there, db.has t = true) :
    ((∀ s ∈ steps, db.IsFree s.name) ∧ ∃ db', db.runSteps steps = .ok db' ∧ Extends steps db db' ∧
        db'.version = db.version) ∨
      ((∃ s ∈ steps, ¬ db.IsFree s.name) ∧ ∃ cause, db.runSteps steps = .error cause) := by
  induction steps generalizing db there with
  | nil => exact .inl ⟨by simp, db, rfl, .refl db, rfl⟩
  | cons s rest ih =>
    obtain ⟨hfirst, hrest⟩ := List.pairwise_cons.1 hdiffer
    rcases runStep_cases hgrounded hthere with
      ⟨hfree, mid, hrun, hmid, hversion⟩ | ⟨htaken, cause, hrun⟩
    · have hnames : ∀ s' ∈ rest, (mid.IsFree s'.name ↔ db.IsFree s'.name) := by
        intro s' hs'
        rw [hmid.isFree_iff]
        refine ⟨And.left, fun h => ⟨h, fun s₀ hs₀ => ?_⟩⟩
        obtain rfl := List.mem_singleton.1 hs₀
        exact hfirst s' hs'
      obtain ⟨there', hgrounded', hthere'⟩ : ∃ there', SchemaStep.Grounded there' rest = true ∧
          ∀ t ∈ there', mid.has t = true := by
        cases s with
        | createTable t =>
          refine ⟨t :: there, hgrounded, fun u hu => ?_⟩
          rcases List.mem_cons.1 hu with rfl | hu
          · exact hmid.has_created
          · exact hmid.has (hthere u hu)
        | createIndex t name =>
          have hboth : t ∈ there ∧ SchemaStep.Grounded there rest = true := by
            simpa [SchemaStep.Grounded] using hgrounded
          exact ⟨there, hboth.2, fun u hu => hmid.has (hthere u hu)⟩
      rcases ih mid hgrounded' hrest hthere' with
        ⟨hall, db', hruns, hdb', hversion'⟩ | ⟨⟨s', hs', htaken⟩, cause, hruns⟩
      · refine .inl ⟨fun s' hs' => ?_, db', by simp [runSteps, hrun, hruns], hmid.trans hdb',
          hversion'.trans hversion⟩
        rcases List.mem_cons.1 hs' with rfl | hs'
        · exact hfree
        · exact (hnames s' hs').1 (hall s' hs')
      · exact .inr ⟨⟨s', List.mem_cons_of_mem _ hs', fun h => htaken ((hnames s' hs').2 h)⟩, cause,
          by simp [runSteps, hrun, hruns]⟩
    · exact .inr ⟨⟨s, List.mem_cons_self, htaken⟩, cause, by simp [runSteps, hrun]⟩

/-! ## All scripts above a version -/

/-- The scripts above a version run exactly if the names of all that they create are free. -/
theorem runScripts_cases (db : Database) {above : Int} {list : List Script}
    (hgrounded : ∀ s ∈ list, SchemaStep.Grounded [] s.steps = true)
    (hdiffer : (list.flatMap Script.steps).Pairwise SchemaStep.Differ) :
    ((∀ s ∈ (scriptsAbove above list).flatMap Script.steps, db.IsFree s.name) ∧
        ∃ db', db.runScripts above list = .ok db' ∧
          Extends ((scriptsAbove above list).flatMap Script.steps) db db' ∧
          db'.version = versionAfter db.version (scriptsAbove above list)) ∨
      ((∃ s ∈ (scriptsAbove above list).flatMap Script.steps, ¬ db.IsFree s.name) ∧
        ∃ cause, db.runScripts above list = .error cause) := by
  induction list generalizing db with
  | nil => exact .inl ⟨by simp [scriptsAbove], db, rfl, .refl db, rfl⟩
  | cons script rest ih =>
    rw [List.flatMap_cons, List.pairwise_append] at hdiffer
    obtain ⟨hown, hrest, hacross⟩ := hdiffer
    have hgrounded' : ∀ s ∈ rest, SchemaStep.Grounded [] s.steps = true :=
      fun s hs => hgrounded s (List.mem_cons_of_mem _ hs)
    by_cases habove : script.version ≤ above
    · have hskipped : scriptsAbove above (script :: rest) = scriptsAbove above rest := by
        simp [scriptsAbove, habove]
      rw [hskipped, runScripts, if_pos habove]
      exact ih db hgrounded' hrest
    have htodo : scriptsAbove above (script :: rest) = script :: scriptsAbove above rest := by
      simp [scriptsAbove, show above < script.version by omega]
    rw [htodo, runScripts, if_neg habove, List.flatMap_cons]
    rcases db.runSteps_cases (hgrounded script List.mem_cons_self) hown (by simp) with
      ⟨hfree, mid, hrun, hmid, -⟩ | ⟨⟨s, hs, htaken⟩, cause, hrun⟩
    · rw [hrun]
      have hmid' := hmid.setVersion script.version
      -- the names of later scripts are free after this one if they were before it
      have hnames : ∀ s' ∈ (scriptsAbove above rest).flatMap Script.steps,
          (Database.IsFree { mid with version := script.version } s'.name ↔ db.IsFree s'.name) := by
        intro s' hs'
        have hlater : s' ∈ rest.flatMap Script.steps := by
          obtain ⟨later, hlater, hs'⟩ := List.mem_flatMap.1 hs'
          exact List.mem_flatMap.2 ⟨later, List.mem_of_mem_filter hlater, hs'⟩
        rw [hmid'.isFree_iff]
        exact ⟨And.left, fun h => ⟨h, fun s hs => hacross s hs s' hlater⟩⟩
      rcases ih { mid with version := script.version } hgrounded' hrest with
        ⟨hall, db', hruns, hdb', hversion⟩ | ⟨⟨s', hs', htaken⟩, hruns⟩
      · refine .inl ⟨fun s' hs' => ?_, db', hruns, hmid'.trans hdb', hversion⟩
        rcases List.mem_append.1 hs' with hs' | hs'
        · exact hfree s' hs'
        · exact (hnames s' hs').1 (hall s' hs')
      · exact .inr ⟨⟨s', List.mem_append_right _ hs', fun h => htaken ((hnames s' hs').2 h)⟩, hruns⟩
    · rw [hrun]
      exact .inr ⟨⟨s, List.mem_append_left _ hs, htaken⟩, cause, rfl⟩

end Database

end JobBoard.Store
