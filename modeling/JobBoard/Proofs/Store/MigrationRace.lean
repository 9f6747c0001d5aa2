import JobBoard.Proofs.Store.Migration
import Mathlib.Logic.Function.Basic

/-!
# Racing migrations

Any number of calls bring one file up to date. Each looks at the version without a lock and then, if
it saw an old one, takes the locked step, and the steps of all calls come in any order. Whatever a
call saw first, it looks again under the lock; so the first locked step runs every missing script
and all others find a current schema. The main theorem is `racing_migrations_run_once`.
-/

set_option autoImplicit false

namespace JobBoard.Store

/-! ## Scripts that are run -/

/-- The scripts above a version that a run begins; the last one may be refused. -/
def Database.scriptsBegun (db : Database) (above : Int) : List Script → List Script
  | [] => []
  | s :: rest =>
    if s.version ≤ above then db.scriptsBegun above rest
    else
      match db.runSteps s.steps with
      | .ok next => s :: { next with version := s.version }.scriptsBegun above rest
      | .error _ => [s]

/-- The scripts that the locked step begins. -/
def Connection.scriptsBegun (c : Connection) : List Script :=
  match c.begin .immediate with
  | (.error _, _) => []
  | (.ok (), c) =>
    match c.checkAge with
    | (.ok (.older v), c) => c.view.scriptsBegun v scripts
    | _ => []

/-- A run of scripts that comes to an end began all that it had to, each of them once. -/
theorem Database.scriptsBegun_of_ok {above : Int} {list : List Script} {db db' : Database}
    (h : db.runScripts above list = .ok db') :
    db.scriptsBegun above list = scriptsAbove above list := by
  induction list generalizing db with
  | nil => rfl
  | cons s rest ih =>
    rw [runScripts] at h
    by_cases habove : s.version ≤ above
    · rw [if_pos habove] at h
      rw [scriptsBegun, if_pos habove, ih h]
      simp [scriptsAbove, habove]
    · rw [if_neg habove] at h
      rw [scriptsBegun, if_neg habove]
      cases hrun : db.runSteps s.steps with
      | error cause => simp [hrun] at h
      | ok next =>
        simp only [hrun] at h ⊢
        rw [ih h]
        simp [scriptsAbove, show above < s.version by omega]

theorem Database.runScripts_of_none_above {above : Int} {list : List Script} (db : Database)
    (h : scriptsAbove above list = []) : db.runScripts above list = .ok db := by
  induction list with
  | nil => rfl
  | cons s rest ih =>
    have hs : s.version ≤ above := by
      by_contra hs
      simp [scriptsAbove, show above < s.version by omega] at h
    rw [runScripts, if_pos hs]
    refine ih ?_
    simpa [scriptsAbove, hs] using h

namespace Connection

variable {c : Connection}

theorem scriptsBegun_of_error (hc : c.Unhindered) {e : StoreError}
    (h : schemaAge c.committed.version = .error e) : c.scriptsBegun = [] := by
  simp only [scriptsBegun, begin_of_unhindered hc, checkAge_locked hc, h]

theorem scriptsBegun_of_current (hc : c.Unhindered)
    (h : schemaAge c.committed.version = .ok .current) : c.scriptsBegun = [] := by
  simp only [scriptsBegun, begin_of_unhindered hc, checkAge_locked hc, h]

theorem scriptsBegun_of_older (hc : c.Unhindered) {v : Int}
    (h : schemaAge c.committed.version = .ok (.older v)) :
    c.scriptsBegun = c.committed.scriptsBegun v scripts := by
  have hview : c.locked.view = c.committed := by simp [locked, view, pinned?]
  simp only [scriptsBegun, begin_of_unhindered hc, checkAge_locked hc, h, hview]

end Connection

/-- The schema of a version: the tables that no missing script creates are there with their indexes,
and the names that the missing scripts use are free. -/
structure Database.HasSchema (db : Database) (v : Int) : Prop where
  version : db.version = v
  tables : ∀ t, SchemaStep.createTable t ∉ pending v →
    ∃ x, db.table t = some x ∧ ∀ index ∈ t.indexes, index ∈ x.indexes
  free : ∀ s ∈ pending v, db.IsFree s.name

/-! ## Calls on a shared file -/

/-- How far a call has come: it has to look at the version, it saw an old one, or it returned. -/
inductive MigrationStage where
  | fresh
  | behind
  | ended (outcome : Except StoreError Unit)

/-- The number of steps that a call has left, at most. -/
def MigrationStage.left : MigrationStage → Nat
  | fresh => 2
  | behind => 1
  | ended _ => 0

/-- A call: its connection, and how far it has come. -/
structure Migrator where
  connection : Connection
  stage : MigrationStage := .fresh

/-- A file that calls bring up to date, with the scripts that were run on it so far. -/
structure SharedFile (ι : Type) where
  tables : Database
  commits : Nat := 0
  calls : ι → Migrator
  ran : List Script := []

namespace SharedFile

variable {ι : Type}

/-- The connection of a call, on the file as it is now. -/
def lent (f : SharedFile ι) (i : ι) : Connection :=
  { (f.calls i).connection with committed := f.tables, commits := f.commits }

/-- No call is kept from the file: all may write, and none is inside a transaction. -/
def Ready (f : SharedFile ι) : Prop :=
  ∀ i, (f.calls i).connection.Unhindered ∧ (f.calls i).connection.readOnly = false

theorem Ready.lent {f : SharedFile ι} (h : f.Ready) (i : ι) : (f.lent i).Unhindered :=
  ⟨(h i).1.idle, (h i).1.readable, (h i).1.alone⟩

/-! ## What every order of steps keeps -/

/-- The tables are those that the calls found, nothing was run, and no call has returned. -/
structure Untouched (found : Database) (f : SharedFile ι) : Prop where
  tables : f.tables = found
  ran : f.ran = []
  none_ended : ∀ i outcome, (f.calls i).stage ≠ .ended outcome

/-- The tables are what the missing scripts made of those that the calls found, and those scripts
were run once each. -/
structure UpToDate (found : Database) (f : SharedFile ι) : Prop where
  tables : found.runScripts found.version scripts = .ok f.tables
  version : f.tables.version = latestVersion
  ran : f.ran = scriptsAbove found.version scripts

/-- No call is kept from the file, none has failed, and either nothing was done or all of it. -/
structure Sound (found : Database) (f : SharedFile ι) : Prop where
  ready : f.Ready
  outcomes : ∀ i outcome, (f.calls i).stage = .ended outcome → outcome = .ok ()
  phase : (found.version < latestVersion ∧ f.Untouched found) ∨ f.UpToDate found

variable {f : SharedFile ι} {found : Database}

/-- What the missing scripts make of the schema of an old version is the schema of the latest. -/
theorem UpToDate.hasSchema (h : f.UpToDate found) (hlow : 0 ≤ found.version)
    (hfound : found.HasSchema found.version) : f.tables.HasSchema latestVersion := by
  by_cases hhigh : found.version < latestVersion
  · rcases runScripts_pending_cases found hlow hhigh with
      ⟨-, db, hruns, hextends, -⟩ | ⟨-, cause, hruns⟩
    · obtain rfl : db = f.tables := Except.ok.inj (hruns.symm.trans h.tables)
      refine ⟨h.version, fun t _ => ?_, by simp [pending_latest]⟩
      rw [hextends.tables, foldl_shape_pending hlow hhigh]
      split
      · exact ⟨_, rfl, fun _ hindex => hindex⟩
      · exact hfound.tables t ‹_›
    · exact absurd (hruns.symm.trans h.tables) (by simp)
  · have hnone : scriptsAbove found.version scripts = [] := by
      have hlatest : ∀ s ∈ scripts, s.version ≤ latestVersion := by decide
      refine List.filter_eq_nil_iff.2 fun s hs => ?_
      have := hlatest s hs
      simp only [decide_eq_true_eq]
      omega
    obtain hsame : found = f.tables :=
      Except.ok.inj ((found.runScripts_of_none_above hnone).symm.trans h.tables)
    rw [← h.version, ← hsame]
    exact hfound

/-- All calls are at their beginning, on a file with the schema of some version. -/
structure Fresh (f : SharedFile ι) (v : Int) : Prop where
  low : 0 ≤ v
  high : v ≤ latestVersion
  schema : f.tables.HasSchema v
  ready : f.Ready
  start : ∀ i, (f.calls i).stage = .fresh
  ran : f.ran = []

theorem Fresh.sound {v : Int} (h : f.Fresh v) : f.Sound f.tables where
  ready := h.ready
  outcomes i outcome hended := by simp [h.start i] at hended
  phase := by
    have hversion := h.schema.version
    rcases Int.lt_or_eq_of_le h.high with hhigh | rfl
    · exact .inl ⟨by omega, rfl, h.ran, fun i outcome hended => by simp [h.start i] at hended⟩
    · refine .inr ⟨?_, hversion, ?_⟩
      · rw [hversion]
        exact f.tables.runScripts_of_none_above rfl
      · rw [hversion, h.ran]
        rfl

/-! ## Steps -/

variable [DecidableEq ι]

/-- The file after a call did something on its connection. -/
def after (f : SharedFile ι) (i : ι) (c : Connection) (stage : MigrationStage) : SharedFile ι :=
  { f with
    tables := c.committed
    commits := c.commits
    calls := Function.update f.calls i ⟨c, stage⟩ }

/-- One call takes its next step: the look at the version, or all that it does under the lock. -/
def step (f : SharedFile ι) (i : ι) : SharedFile ι :=
  match (f.calls i).stage with
  | .fresh =>
    match (f.lent i).checkAge with
    | (.error e, c) => f.after i c (.ended (.error e))
    | (.ok .current, c) => f.after i c (.ended (.ok ()))
    | (.ok (.older _), c) => f.after i c .behind
  | .behind =>
    match (f.lent i).upgrade with
    | (outcome, c) =>
      { f.after i c (.ended outcome) with ran := f.ran ++ (f.lent i).scriptsBegun }
  | .ended _ => f

/-- The calls take steps in some order. -/
def run (f : SharedFile ι) (order : List ι) : SharedFile ι := order.foldl step f

variable {i j : ι}

theorem run_cons (f : SharedFile ι) (i : ι) (rest : List ι) :
    f.run (i :: rest) = (f.step i).run rest := rfl

theorem lent_after (f : SharedFile ι) (i : ι) (c : Connection) (stage : MigrationStage) :
    (f.after i c stage).lent i = c := by
  simp [lent, after]

/-- The two steps of a call, one right after the other, are the call. -/
theorem step_step_eq_migrate (h : (f.calls i).stage = .fresh) :
    (((f.step i).step i).calls i).stage = .ended (f.lent i).migrate.1 ∧
      ((f.step i).step i).lent i = (f.lent i).migrate.2 := by
  have hstep : ∀ c stage, ((f.after i c stage).calls i) = ⟨c, stage⟩ := by simp [after]
  rw [Connection.migrate]
  rcases hage : (f.lent i).checkAge with ⟨e | age, c⟩
  · simp only [step, h, hage, hstep, lent_after, and_self]
  · cases age with
    | current =>
      simp only [step, h, hage, hstep, lent_after, and_self]
    | older v =>
      simp only [step, h, hage, hstep, lent_after]
      simp [after, lent]

/-! ## Who moves -/

/-- A step changes only the call that takes it. -/
theorem calls_step_of_ne (h : j ≠ i) : (f.step i).calls j = f.calls j := by
  have hafter : ∀ c stage, (f.after i c stage).calls j = f.calls j := by simp [after, h]
  unfold step
  split
  · split <;> exact hafter _ _
  · exact hafter _ _
  · rfl

/-- A call that has returned does nothing more. -/
theorem step_of_ended {outcome : Except StoreError Unit} (h : (f.calls i).stage = .ended outcome) :
    f.step i = f := by
  simp [step, h]

/-- Whatever the others do, a call that has returned stays as it is. -/
theorem run_of_ended {outcome : Except StoreError Unit} (h : (f.calls i).stage = .ended outcome)
    (order : List ι) : ((f.run order).calls i).stage = .ended outcome := by
  induction order generalizing f with
  | nil => exact h
  | cons j rest ih =>
    refine ih (f := f.step j) ?_
    by_cases hij : i = j
    · subst hij
      rw [step_of_ended h, h]
    · rw [calls_step_of_ne hij, h]

theorem left_step (f : SharedFile ι) (i : ι) :
    ((f.step i).calls i).stage.left ≤ (f.calls i).stage.left - 1 := by
  have hafter : ∀ c stage, ((f.after i c stage).calls i).stage = stage := by simp [after]
  cases hstage : (f.calls i).stage with
  | fresh =>
    simp only [step, hstage]
    rcases (f.lent i).checkAge with ⟨e | age, c⟩
    · simp [hafter, MigrationStage.left]
    · cases age <;> simp [hafter, MigrationStage.left]
  | behind =>
    simp only [step, hstage]
    exact Nat.le_of_eq (congrArg MigrationStage.left (hafter _ _))
  | ended outcome => simp [step_of_ended hstage, hstage, MigrationStage.left]

theorem left_run (f : SharedFile ι) (order : List ι) (i : ι) :
    ((f.run order).calls i).stage.left ≤ (f.calls i).stage.left - order.count i := by
  induction order generalizing f with
  | nil => exact Nat.le_refl _
  | cons j rest ih =>
    have hrest := ih (f.step j)
    rw [run_cons]
    by_cases hij : i = j
    · subst hij
      have hfirst := left_step f i
      rw [List.count_cons_self]
      omega
    · rw [calls_step_of_ne hij] at hrest
      rwa [List.count_cons_of_ne (Ne.symm hij)]

/-- A call returns by its second step. -/
theorem ended_of_two_steps {order : List ι} (h : 2 ≤ order.count i) :
    ∃ outcome, ((f.run order).calls i).stage = .ended outcome := by
  have hstart : (f.calls i).stage.left ≤ 2 := by
    cases (f.calls i).stage <;> simp [MigrationStage.left]
  have hleft := left_run f order i
  cases hstage : ((f.run order).calls i).stage with
  | ended outcome => exact ⟨outcome, rfl⟩
  | fresh | behind =>
    have hnone : 0 < ((f.run order).calls i).stage.left := by simp [hstage, MigrationStage.left]
    omega

/-! ## What one step does to the file -/

theorem Ready.after (h : f.Ready) {c : Connection} (hc : c.Unhindered)
    (hwritable : c.readOnly = false) (i : ι) (stage : MigrationStage) :
    (f.after i c stage).Ready := by
  intro j
  by_cases hj : j = i
  · subst hj
    simpa [SharedFile.after] using ⟨hc, hwritable⟩
  · simpa [SharedFile.after, hj] using h j

/-- The file after a call moved on without touching the tables. -/
def moved (f : SharedFile ι) (i : ι) (stage : MigrationStage) : SharedFile ι :=
  f.after i (f.lent i) stage

theorem step_of_fresh (hf : f.Ready) (h : (f.calls i).stage = .fresh) : f.step i = f.moved i
    (match schemaAge f.tables.version with
      | .error e => .ended (.error e)
      | .ok .current => .ended (.ok ())
      | .ok (.older _) => .behind) := by
  have hage : (f.lent i).checkAge = (schemaAge f.tables.version, f.lent i) :=
    Connection.checkAge_of_unhindered (hf.lent i)
  simp only [step, h, hage]
  rcases schemaAge f.tables.version with e | age
  · rfl
  · cases age <;> rfl

theorem step_of_behind_error (hf : f.Ready) (h : (f.calls i).stage = .behind) {e : StoreError}
    (hage : schemaAge f.tables.version = .error e) : f.step i = f.moved i (.ended (.error e)) := by
  have hupgrade := Connection.upgrade_of_error (hf.lent i) hage
  have hbegun := Connection.scriptsBegun_of_error (hf.lent i) hage
  simp only [step, h, hupgrade, hbegun, List.append_nil]
  rfl

theorem step_of_behind_current (hf : f.Ready) (h : (f.calls i).stage = .behind)
    (hage : schemaAge f.tables.version = .ok .current) :
    f.step i = f.moved i (.ended (.ok ())) := by
  have hupgrade := Connection.upgrade_of_current (hf.lent i) hage
  have hbegun := Connection.scriptsBegun_of_current (hf.lent i) hage
  simp only [step, h, hupgrade, hbegun, List.append_nil]
  rfl

theorem step_of_behind_older (hf : f.Ready) (h : (f.calls i).stage = .behind)
    (hlow : 0 ≤ f.tables.version) (hhigh : f.tables.version < latestVersion) {db : Database}
    (hruns : f.tables.runScripts f.tables.version scripts = .ok db) (howes : db.owes = false) :
    f.step i = { f.after i ((f.lent i).publish db true) (.ended (.ok ())) with
      ran := f.ran ++ scriptsAbove f.tables.version scripts } := by
  have hage := schemaAge_of_older hlow hhigh
  have hupgrade : (f.lent i).upgrade = (.ok (), (f.lent i).publish db true) := by
    have hwritable : (f.lent i).readOnly = false := (hf i).2
    rw [Connection.upgrade_of_older (hf.lent i) hage, show (f.lent i).committed = f.tables from rfl]
    simp only [hruns, howes, hwritable]
    rfl
  have hbegun : (f.lent i).scriptsBegun = scriptsAbove f.tables.version scripts :=
    (Connection.scriptsBegun_of_older (hf.lent i) hage).trans (Database.scriptsBegun_of_ok hruns)
  simp only [step, h, hupgrade, hbegun]

/-! ## All calls from one version -/

theorem ended_moved {stage : MigrationStage} {outcome : Except StoreError Unit}
    (h : ((f.moved i stage).calls j).stage = .ended outcome) :
    stage = .ended outcome ∨ (f.calls j).stage = .ended outcome := by
  by_cases hj : j = i
  · subst hj
    exact .inl (by simpa [moved, after] using h)
  · exact .inr (by simpa [moved, after, hj] using h)

/-- A call that moves on without touching the tables, and returns well if it returns, keeps things
sound; it may return only if the schema is up to date. -/
theorem Sound.moved (h : f.Sound found) (i : ι) {stage : MigrationStage}
    (hstage : stage = .behind ∨ (stage = .ended (.ok ()) ∧ f.UpToDate found)) :
    (f.moved i stage).Sound found where
  ready := h.ready.after (h.ready.lent i) (h.ready i).2 i stage
  outcomes j outcome hj := by
    rcases ended_moved hj with hended | hended
    · rcases hstage with hbehind | ⟨hok, -⟩
      · simp [hbehind] at hended
      · simpa [hok] using hended.symm
    · exact h.outcomes j outcome hended
  phase := by
    rcases h.phase with ⟨hhigh, huntouched⟩ | huptodate
    · rcases hstage with rfl | ⟨-, hdone⟩
      · refine .inl ⟨hhigh, huntouched.tables, huntouched.ran, fun j outcome hj => ?_⟩
        rcases ended_moved hj with hended | hended
        · cases hended
        · exact huntouched.none_ended j outcome hended
      · exact .inr ⟨hdone.tables, hdone.version, hdone.ran⟩
    · exact .inr ⟨huptodate.tables, huptodate.version, huptodate.ran⟩

/-- The first call to get the lock runs what is missing. -/
theorem Sound.upgraded (h : f.Sound found) (hlow : 0 ≤ found.version)
    (hhigh : found.version < latestVersion)
    (hfree : ∀ s ∈ pending found.version, found.IsFree s.name) (huntouched : f.Untouched found)
    {i : ι} (hstage : (f.calls i).stage = .behind) : (f.step i).Sound found := by
  obtain ⟨db, hruns, -, hversion, howes⟩ : ∃ db, found.runScripts found.version scripts = .ok db ∧
      Database.Extends (pending found.version) found db ∧ db.version = latestVersion ∧
        db.owes = false := by
    rcases runScripts_pending_cases found hlow hhigh with ⟨-, hdone⟩ | ⟨⟨s, hs, htaken⟩, -⟩
    · exact hdone
    · exact absurd (hfree s hs) htaken
  obtain rfl := huntouched.tables
  rw [step_of_behind_older h.ready hstage hlow hhigh hruns howes, huntouched.ran]
  refine {
    ready := h.ready.after ((h.ready.lent i).publish db true) (h.ready i).2 i _
    outcomes := fun j outcome hj => ?_
    phase := .inr ⟨hruns, hversion, rfl⟩ }
  by_cases hij : j = i
  · subst hij
    have : MigrationStage.ended (.ok ()) = .ended outcome := by simpa [after] using hj
    exact (MigrationStage.ended.inj this).symm
  · exact absurd (by simpa [after, hij] using hj) (huntouched.none_ended j outcome)

/-- Whichever call takes the next step, things stay sound: the first that gets the lock finds the
old version again and runs what is missing, and whoever comes later finds the current one. -/
theorem Sound.step (hlow : 0 ≤ found.version)
    (hfree : ∀ s ∈ pending found.version, found.IsFree s.name)
    (h : f.Sound found) (i : ι) : (f.step i).Sound found := by
  cases hstage : (f.calls i).stage with
  | ended outcome => rwa [step_of_ended hstage]
  | fresh =>
    rw [step_of_fresh h.ready hstage]
    rcases h.phase with ⟨hhigh, huntouched⟩ | huptodate
    · rw [huntouched.tables, schemaAge_of_older hlow hhigh]
      exact h.moved i (.inl rfl)
    · rw [huptodate.version, schemaAge_latest]
      exact h.moved i (.inr ⟨rfl, huptodate⟩)
  | behind =>
    rcases h.phase with ⟨hhigh, huntouched⟩ | huptodate
    · exact h.upgraded hlow hhigh hfree huntouched hstage
    · rw [step_of_behind_current h.ready hstage (huptodate.version ▸ schemaAge_latest)]
      exact h.moved i (.inr ⟨rfl, huptodate⟩)

theorem Sound.run (hlow : 0 ≤ found.version)
    (hfree : ∀ s ∈ pending found.version, found.IsFree s.name)
    (h : f.Sound found) (order : List ι) : (f.run order).Sound found := by
  induction order generalizing f with
  | nil => exact h
  | cons i rest ih => exact ih (h.step hlow hfree i)

/-! ## A version from the future -/

/-- Where the version is above the latest, nothing changes any more, and every call that takes a
step before it returned is refused. -/
theorem run_of_newer (hf : f.Ready) (hnewer : latestVersion < f.tables.version) (order : List ι) :
    (f.run order).tables = f.tables ∧ (f.run order).ran = f.ran ∧
      ∀ i ∈ order, (∀ outcome, (f.calls i).stage ≠ .ended outcome) →
        ((f.run order).calls i).stage =
          .ended (.error (.newerSchema f.tables.version latestVersion)) := by
  have hage := schemaAge_of_newer hnewer
  induction order generalizing f with
  | nil => exact ⟨rfl, rfl, by simp⟩
  | cons j rest ih =>
    -- the call that takes the step has returned, or it is refused whether or not it looked before
    have hstep : ((∃ outcome, (f.calls j).stage = .ended outcome) ∧ f.step j = f) ∨
        f.step j = f.moved j (.ended (.error (.newerSchema f.tables.version latestVersion))) := by
      cases hstage : (f.calls j).stage with
      | fresh => exact .inr (by rw [step_of_fresh hf hstage, hage])
      | behind => exact .inr (step_of_behind_error hf hstage hage)
      | ended outcome => exact .inl ⟨⟨outcome, rfl⟩, step_of_ended hstage⟩
    rw [run_cons]
    rcases hstep with ⟨⟨outcome, hended⟩, hsame⟩ | hmoved
    · obtain ⟨htables, hran, hcalls⟩ := ih hf hnewer hage
      rw [hsame]
      refine ⟨htables, hran, fun i hi hopen => ?_⟩
      rcases List.mem_cons.1 hi with rfl | hi
      · exact absurd hended (hopen outcome)
      · exact hcalls i hi hopen
    · have hready : (f.step j).Ready := hmoved ▸ hf.after (hf.lent j) (hf j).2 j _
      have htables : (f.step j).tables = f.tables := by rw [hmoved]; rfl
      have hran : (f.step j).ran = f.ran := by rw [hmoved]; rfl
      obtain ⟨htables', hran', hcalls⟩ := ih hready (htables ▸ hnewer) (htables ▸ hage)
      refine ⟨htables'.trans htables, hran'.trans hran, fun i hi hopen => ?_⟩
      by_cases hij : i = j
      · subst hij
        refine run_of_ended ?_ rest
        rw [hmoved]
        simp [moved, after]
      · rcases List.mem_cons.1 hi with rfl | hi
        · exact absurd rfl hij
        · have hcall := calls_step_of_ne (f := f) hij
          have := hcalls i hi (hcall ▸ hopen)
          rwa [htables] at this

/-! ## Every order of steps -/

/-- Racing migrations run each script once. Any number of calls bring a file with the schema of some
version up to date, and their steps come in any order. Then a call has returned by its second step;
nothing was run so far or all that was missing was run, once each and in order; whenever some call
has returned, it has succeeded, the schema is complete and all that was missing was run, and further
steps change nothing about that. Should the version be set above the latest from outside while a
call is between its steps, then that call is refused, and it leaves tables and scripts alone. -/
theorem racing_migrations_run_once {v : Int} (f : SharedFile ι) (hf : f.Fresh v) (order : List ι) :
    (∀ i, 2 ≤ order.count i → ∃ outcome, ((f.run order).calls i).stage = .ended outcome) ∧
    (((f.run order).ran = [] ∧ (f.run order).tables = f.tables) ∨
      (f.run order).ran = scriptsAbove v scripts) ∧
    (∀ i outcome, ((f.run order).calls i).stage = .ended outcome →
      outcome = .ok () ∧ (f.run order).ran = scriptsAbove v scripts ∧
      f.tables.runScripts v scripts = .ok (f.run order).tables ∧
      (f.run order).tables.HasSchema latestVersion ∧
      ∀ more, ((f.run order).run more).tables = (f.run order).tables ∧
        ((f.run order).run more).ran = (f.run order).ran) ∧
    ∀ i, ((f.run order).calls i).stage = .behind → ∀ db commits, latestVersion < db.version →
      ∀ more, i ∈ more → let late := { f.run order with tables := db, commits }.run more
        (late.calls i).stage = .ended (.error (.newerSchema db.version latestVersion)) ∧
          late.tables = db ∧ late.ran = (f.run order).ran := by
  have hversion := hf.schema.version
  have hlow : 0 ≤ f.tables.version := hversion ▸ hf.low
  have hfree : ∀ s ∈ pending f.tables.version, f.tables.IsFree s.name := hversion ▸ hf.schema.free
  have hsound : ∀ order, (f.run order).Sound f.tables := hf.sound.run hlow hfree
  refine ⟨fun i => ended_of_two_steps, ?_, fun i outcome hended => ?_,
    fun i hbehind db commits hnewer more hi => ?_⟩
  · rcases (hsound order).phase with ⟨-, huntouched⟩ | huptodate
    · exact .inl ⟨huntouched.ran, huntouched.tables⟩
    · exact .inr (hversion ▸ huptodate.ran)
  · have hdone : ∀ order, (∃ i outcome, ((f.run order).calls i).stage = .ended outcome) →
        (f.run order).UpToDate f.tables := by
      rintro order ⟨i, outcome, hended⟩
      rcases (hsound order).phase with ⟨-, huntouched⟩ | huptodate
      · exact absurd hended (huntouched.none_ended i outcome)
      · exact huptodate
    have hnow := hdone order ⟨i, outcome, hended⟩
    refine ⟨(hsound order).outcomes i outcome hended, hversion ▸ hnow.ran, hversion ▸ hnow.tables,
      hnow.hasSchema hlow (hversion ▸ hf.schema), fun more => ?_⟩
    have hlater := hdone (order ++ more) ⟨i, outcome, by
      rw [run, List.foldl_append]
      exact run_of_ended hended more⟩
    rw [run, List.foldl_append] at hlater
    exact ⟨Except.ok.inj (hlater.tables.symm.trans hnow.tables), hlater.ran.trans hnow.ran.symm⟩
  · obtain ⟨htables, hran, hcalls⟩ :=
      run_of_newer (f := { f.run order with tables := db, commits }) (hsound order).ready hnewer
        more
    exact ⟨hcalls i hi (by simp [hbehind]), htables, hran⟩

/-- Three calls on a file of the first version with two skills and a foreign table. -/
def sample : SharedFile (Fin 3) where
  tables := (Connection.sampleOld [⟨"notes", false, [], []⟩]).committed
  calls _ := ⟨{}, .fresh⟩

theorem sample_fresh : sample.Fresh 1 where
  low := by decide
  high := by decide
  schema := {
    version := rfl
    tables := fun t ht => by
      cases t with
      | dictionary d => cases d <;> exact ⟨_, rfl, by decide⟩
      | edges k => cases k <;> exact absurd (by decide) ht
      | employer => exact absurd (by decide) ht
      | applicant => exact absurd (by decide) ht
      | vacancy => exact absurd (by decide) ht
      | resume => exact absurd (by decide) ht
    free := by decide }
  ready _ := ⟨⟨rfl, rfl, rfl⟩, rfl⟩
  start _ := rfl
  ran := rfl

/-- All three look before the first takes the lock: two scripts are run in all, and all succeed. A
call that comes to the lock after the version was set to nine is refused. -/
theorem racing_migrations_run_once_sample :
    (∀ i, ((sample.run [0, 1, 2, 1, 0, 2]).calls i).stage = .ended (.ok ())) ∧
      (sample.run [0, 1, 2, 1, 0, 2]).ran.map Script.version = [2, 3] ∧
      let late := { sample.run [0, 1] with tables := { version := 9 }, commits := 1 }.run [1]
      (late.calls 1).stage = .ended (.error (.newerSchema 9 3)) := by
  obtain ⟨hreturns, -, hended, -⟩ :=
    racing_migrations_run_once sample sample_fresh [0, 1, 2, 1, 0, 2]
  obtain ⟨-, -, -, hlate⟩ := racing_migrations_run_once sample sample_fresh [0, 1]
  have hall : ∀ i, ((sample.run [0, 1, 2, 1, 0, 2]).calls i).stage = .ended (.ok ()) := by
    intro i
    obtain ⟨outcome, houtcome⟩ := hreturns i (by decide +revert)
    rw [houtcome, (hended i outcome houtcome).1]
  refine ⟨hall, ?_, (hlate 1 rfl { version := 9 } 1 (by decide) [1] (by simp)).1⟩
  rw [(hended 0 _ (hall 0)).2.1]
  rfl

end SharedFile

end JobBoard.Store
