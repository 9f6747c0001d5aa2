import JobBoard.Proofs.Store.Scripts
import JobBoard.Proofs.Store.Transactions
import JobBoard.Store.Migration

/-!
# Bringing a database up to date

Where nothing stands in the way, the locked step runs the scripts above the version that it reads
and publishes what they come to, or leaves the connection as it was (`Connection.upgrade_of_older`).
Together with what the scripts need (`Database.runScripts_cases`) this says when both steps succeed
and what they leave: all that is missing is made, or nothing is
(`Connection.migrate_all_or_nothing`).
-/

set_option autoImplicit false

namespace JobBoard.Store

open scoped List

/-! ## What is missing -/

/-- What the scripts above a version create. -/
def pending (v : Int) : List SchemaStep := (scriptsAbove v scripts).flatMap Script.steps

theorem pending_latest : pending latestVersion = [] := rfl

theorem scripts_grounded : ∀ s ∈ scripts, SchemaStep.Grounded [] s.steps = true := by decide

theorem scripts_differ : (scripts.flatMap Script.steps).Pairwise SchemaStep.Differ := by decide

theorem versionAfter_scriptsAbove {v : Int} (hlow : 0 ≤ v) (hhigh : v < latestVersion) :
    versionAfter v (scriptsAbove v scripts) = latestVersion := by
  have hcases : v = 0 ∨ v = 1 ∨ v = 2 := by simp only [latestVersion] at hhigh; omega
  rcases hcases with rfl | rfl | rfl <;> decide

/-- What the missing statements make of a table: one that they create has the indexes of the
schema, and one that they do not create stays as it is. -/
theorem foldl_shape_pending {v : Int} (hlow : 0 ≤ v) (hhigh : v < latestVersion) (t : TableName)
    (x : Option (Table t.Row)) : (pending v).foldl (SchemaStep.shape t) x =
      if .createTable t ∈ pending v then some { indexes := t.indexes } else x := by
  have hcases : v = 0 ∨ v = 1 ∨ v = 2 := by simp only [latestVersion] at hhigh; omega
  rcases hcases with rfl | rfl | rfl
  all_goals
    cases t with
    | dictionary d => cases d <;> rfl
    | edges k => cases k <;> rfl
    | employer => rfl
    | applicant => rfl
    | vacancy => rfl
    | resume => rfl

theorem createTable_edges_mem_pending {v : Int} (h : v < latestVersion) (k : EdgeKind) :
    SchemaStep.createTable (.edges k) ∈ pending v := by
  have hlast : ∃ s ∈ scripts, s.version = latestVersion ∧
      SchemaStep.createTable (.edges k) ∈ s.steps := by cases k <;> decide
  obtain ⟨s, hs, hversion, hmem⟩ := hlast
  exact List.mem_flatMap.2 ⟨s, List.mem_filter.2 ⟨hs, decide_eq_true (hversion ▸ h)⟩, hmem⟩

/-! ## What a version says -/

theorem schemaAge_of_negative {v : Int} (h : v < 0) :
    schemaAge v = .error (.fault (.outOfRange 0 v)) := if_pos h

theorem schemaAge_of_newer {v : Int} (h : latestVersion < v) :
    schemaAge v = .error (.newerSchema v latestVersion) := by
  have : ¬ v < 0 := by simp only [latestVersion] at h; omega
  rw [schemaAge, if_neg this, if_pos h]

theorem schemaAge_latest : schemaAge latestVersion = .ok .current := by decide

theorem schemaAge_of_older {v : Int} (hlow : 0 ≤ v) (hhigh : v < latestVersion) :
    schemaAge v = .ok (.older v) := by
  rw [schemaAge, if_neg (by omega), if_neg (by omega), if_neg (by omega)]

/-! ## The scripts that are missing -/

/-- What is missing is made exactly if all its names are free, and nothing is then owed. -/
theorem runScripts_pending_cases (db : Database) (hlow : 0 ≤ db.version)
    (hhigh : db.version < latestVersion) :
    ((∀ s ∈ pending db.version, db.IsFree s.name) ∧
        ∃ db', db.runScripts db.version scripts = .ok db' ∧
          Database.Extends (pending db.version) db db' ∧ db'.version = latestVersion ∧
          db'.owes = false) ∨
      ((∃ s ∈ pending db.version, ¬ db.IsFree s.name) ∧
        ∃ cause, db.runScripts db.version scripts = .error cause) := by
  rcases db.runScripts_cases scripts_grounded scripts_differ with
    ⟨hfree, db', hruns, hextends, hversion⟩ | htaken
  · refine .inl ⟨hfree, db', hruns, hextends, ?_, Database.owes_eq_false fun k x hx => ?_⟩
    · rw [hversion, versionAfter_scriptsAbove hlow hhigh]
    · rw [hextends.tables] at hx
      have hnew := foldl_shape_pending hlow hhigh (.edges k) (db.table (.edges k))
      rw [if_pos (createTable_edges_mem_pending hhigh k)] at hnew
      obtain rfl := Option.some.inj (hnew.symm.trans hx)
      rfl
  · exact .inr htaken

namespace Connection

/-- The file is a database, no transaction is open, and nobody else holds anything. -/
structure Unhindered (c : Connection) : Prop where
  idle : c.transaction = none
  readable : c.readable = true
  alone : c.elsewhere = {}

variable {c : Connection}

theorem checkAge_of_unhindered (hc : c.Unhindered) :
    c.checkAge = (schemaAge c.committed.version, c) := by
  obtain ⟨hidle, hreadable, halone⟩ := hc
  have hview := view_of_alone hidle
  have hfree : c.readBlocked = false := by simp [readBlocked, halone]
  have hread : c.version.1 = .ok c.committed.version := by
    refine read_of_free hreadable hfree (by decide) ?_
    simp [Query.of, hview, Except.map]
  have hsame : c.version.2 = c := read_alone hidle _
  rw [checkAge, show c.version = (.ok c.committed.version, c) from Prod.ext hread hsame]

theorem begin_of_unhindered (hc : c.Unhindered) : c.begin .immediate = (.ok (), c.locked) :=
  begin_of_unlocked hc.idle hc.readable (by simp [readBlocked, hc.alone]) (by simp [hc.alone])

theorem checkAge_locked (hc : c.Unhindered) :
    c.locked.checkAge = (schemaAge c.committed.version, c.locked) := by
  simp [checkAge, version, read, schema, readBlocked, pinned?, pin, locked, Query.of, hc.readable,
    Except.map, view]

theorem abandon_locked (hc : c.Unhindered) : c.locked.abandon = c := by
  simp [locked, abandon, ← hc.idle]

theorem upgrade_of_error (hc : c.Unhindered) {e : StoreError}
    (h : schemaAge c.committed.version = .error e) : c.upgrade = (.error e, c) := by
  rw [upgrade, begin_of_unhindered hc]
  simp only [upgradeLocked, checkAge_locked hc, h, abandon_locked hc]

theorem upgrade_of_current (hc : c.Unhindered)
    (h : schemaAge c.committed.version = .ok .current) : c.upgrade = (.ok (), c) := by
  rw [upgrade, begin_of_unhindered hc]
  simp only [upgradeLocked, checkAge_locked hc, h, abandon_locked hc]

/-- The locked step on an old schema: what the scripts come to is published, or nothing is. -/
theorem upgrade_of_older (hc : c.Unhindered) {v : Int}
    (h : schemaAge c.committed.version = .ok (.older v)) : c.upgrade =
      match c.committed.runScripts v scripts with
      | .error cause => (.error (.refused cause), c)
      | .ok db =>
        if c.readOnly then (.error (.refused .readOnly), c)
        else if db.owes then (.error (.refused .danglingReference), c)
        else (.ok (), c.publish db true) := by
  rw [upgrade, begin_of_unhindered hc]
  simp only [upgradeLocked, checkAge_locked hc, h]
  have hschema : c.locked.schema = .ok c.committed := by
    simp [schema, readBlocked, pinned?, view, locked, hc.readable]
  cases hruns : c.committed.runScripts v scripts with
  | error cause =>
    simp [write, hschema, Except.bind, upgradeFrom, hruns, Except.map, abandon_locked hc]
  | ok db =>
    have hu : upgradeFrom v c.committed = .ok (.written db 0) := by
      simp [upgradeFrom, hruns, Except.map]
    cases hreadOnly : c.readOnly with
    | true =>
      have hobstacle : c.locked.writeObstacle? = some .readOnly := by
        simp [writeObstacle?, readBlocked, pinned?, locked, hreadOnly]
      simp [write, hschema, Except.bind, hu, hobstacle, abandon_locked hc]
    | false =>
      have hobstacle : c.locked.writeObstacle? = none := by simp [writeObstacle?, locked, hreadOnly]
      have hran : c.locked.write (fun _ => false) (upgradeFrom v) =
          { answer := .ok (), connection := { c with transaction := some {
              view := some (db, c.commits), writing := true, touched := true } } } := by
        simp only [write, hschema, Except.bind, hu, hobstacle]
        simp [locked, hreadOnly, finishWithin, Effect.written]
      rw [hran]
      cases howes : db.owes with
      | true => simp [commit, howes, abandon, ← hc.idle]
      | false => simp [commit, howes, commitBlocked, hc.alone, publish, hc.idle]

theorem Unhindered.publish (hc : c.Unhindered) (db : Database) (touched : Bool) :
    (c.publish db touched).Unhindered :=
  ⟨hc.idle, hc.readable, hc.alone⟩

theorem migrate_of_error (hc : c.Unhindered) {e : StoreError}
    (h : schemaAge c.committed.version = .error e) : c.migrate = (.error e, c) := by
  simp only [migrate, checkAge_of_unhindered hc, h]

theorem migrate_of_current (hc : c.Unhindered) (h : c.committed.version = latestVersion) :
    c.migrate = (.ok (), c) := by
  simp only [migrate, checkAge_of_unhindered hc, h, schemaAge_latest]

theorem migrate_of_older (hc : c.Unhindered) (hlow : 0 ≤ c.committed.version)
    (hhigh : c.committed.version < latestVersion) : c.migrate = c.upgrade := by
  simp only [migrate, checkAge_of_unhindered hc, schemaAge_of_older hlow hhigh]

/-- Both steps on an old schema: what is missing is made and published, or nothing changes. -/
theorem migrate_older_cases (hc : c.Unhindered) (hlow : 0 ≤ c.committed.version)
    (hhigh : c.committed.version < latestVersion) :
    (c.readOnly = false ∧ (∀ s ∈ pending c.committed.version, c.committed.IsFree s.name) ∧
        ∃ db, Database.Extends (pending c.committed.version) c.committed db ∧
          db.version = latestVersion ∧ c.migrate = (.ok (), c.publish db true)) ∨
      ((c.readOnly = true ∨ ∃ s ∈ pending c.committed.version, ¬ c.committed.IsFree s.name) ∧
        ∃ e, c.migrate = (.error e, c)) := by
  rw [migrate_of_older hc hlow hhigh, upgrade_of_older hc (schemaAge_of_older hlow hhigh)]
  rcases runScripts_pending_cases c.committed hlow hhigh with
    ⟨hfree, db, hruns, hextends, hversion, howes⟩ | ⟨htaken, cause, hruns⟩
  · simp only [hruns, howes]
    cases hreadOnly : c.readOnly with
    | true => exact .inr ⟨.inl rfl, _, rfl⟩
    | false => exact .inl ⟨rfl, hfree, db, hextends, hversion, rfl⟩
  · simp only [hruns]
    exact .inr ⟨.inr htaken, _, rfl⟩

/-- Where nothing stands in the way, a database is brought up to date from any version, or left as
it was. A schema from the future and a version below zero are refused, and a current schema needs
nothing. An old one is brought up to date exactly if the file may be written and no table or index
has a name that the missing scripts use; there are then the old tables and indexes and those of the
scripts, and the old rows. After that there is nothing left to do. -/
theorem migrate_all_or_nothing (c : Connection) (hc : c.Unhindered) :
    (latestVersion < c.committed.version →
      c.migrate = (.error (.newerSchema c.committed.version latestVersion), c)) ∧
    (c.committed.version < 0 →
      c.migrate = (.error (.fault (.outOfRange 0 c.committed.version)), c)) ∧
    (c.committed.version = latestVersion → c.migrate = (.ok (), c)) ∧
    (0 ≤ c.committed.version → c.committed.version < latestVersion →
      (c.migrate.1 = .ok () ↔ c.readOnly = false ∧
        ∀ s ∈ pending c.committed.version, c.committed.IsFree s.name) ∧
      (c.migrate.1 = .ok () →
        c.migrate.2.committed.version = latestVersion ∧
        (c.migrate.2.committed.objects).Perm
          (c.committed.objects ++ (pending c.committed.version).map SchemaStep.object) ∧
        c.migrate.2.committed.foreign = c.committed.foreign ∧
        (∀ t x, c.committed.table t = some x → c.migrate.2.committed.table t = some x) ∧
        ∀ t, c.committed.table t = none → c.migrate.2.committed.table t =
          if .createTable t ∈ pending c.committed.version then some { indexes := t.indexes }
          else none) ∧
      ∀ e, c.migrate.1 = .error e → c.migrate.2 = c) ∧
    (c.migrate.1 = .ok () → c.migrate.2.migrate = (.ok (), c.migrate.2)) := by
  refine ⟨fun h => migrate_of_error hc (schemaAge_of_newer h),
    fun h => migrate_of_error hc (schemaAge_of_negative h), migrate_of_current hc,
    fun hlow hhigh => ?_, fun hok => ?_⟩
  · rcases migrate_older_cases hc hlow hhigh with
      ⟨hwritable, hfree, db, hextends, hversion, heq⟩ | ⟨hobstacle, e, heq⟩
    · rw [heq]
      refine ⟨⟨fun _ => ⟨hwritable, hfree⟩, fun _ => rfl⟩, fun _ => ?_, fun e he => by simp at he⟩
      refine ⟨hversion, hextends.objects, hextends.foreign, fun t x hx => ?_, fun t hnone => ?_⟩
      · show db.table t = some x
        rw [hextends.tables, foldl_shape_pending hlow hhigh, hx]
        -- a table that is there is not among what is made, whose names are free
        refine if_neg fun hmem => ?_
        have hnone : c.committed.table t = none := (hfree _ hmem).table_eq_none
        rw [hx] at hnone
        cases hnone
      · show db.table t = _
        rw [hextends.tables, foldl_shape_pending hlow hhigh, hnone]
    · rw [heq]
      refine ⟨⟨fun h => by simp at h, ?_⟩, fun h => by simp at h, fun _ _ => rfl⟩
      rintro ⟨hwritable, hfree⟩
      rcases hobstacle with hreadOnly | ⟨s, hs, htaken⟩
      · simp [hwritable] at hreadOnly
      · exact absurd (hfree s hs) htaken
  · have hcurrent : c.migrate.2.Unhindered ∧ c.migrate.2.committed.version = latestVersion := by
      rcases Int.lt_trichotomy c.committed.version latestVersion with hhigh | hsame | hnewer
      · by_cases hlow : 0 ≤ c.committed.version
        · rcases migrate_older_cases hc hlow hhigh with
            ⟨-, -, db, -, hversion, heq⟩ | ⟨-, e, heq⟩
          · rw [heq]
            exact ⟨hc.publish db true, hversion⟩
          · simp [heq] at hok
        · simp [migrate_of_error hc (schemaAge_of_negative (by omega))] at hok
      · rw [migrate_of_current hc hsame]
        exact ⟨hc, hsame⟩
      · simp [migrate_of_error hc (schemaAge_of_newer hnewer)] at hok
    exact migrate_of_current hcurrent.1 hcurrent.2

/-- A connection to a database of the first version with two skills, and with foreign tables. -/
def sampleOld (foreign : List Foreign) : Connection where
  committed := {
    version := 1
    dictionaries := ⟨some { rows := [⟨1, "rust"⟩, ⟨2, "sql"⟩] }, some {}, some {}⟩
    foreign }

/-- The first version is brought up to date beside a foreign table, and the skills stay; a foreign
table whose name differs from a missing one in case only keeps everything as it was. -/
theorem migrate_all_or_nothing_sample :
    ((sampleOld [⟨"notes", false, [], []⟩]).migrate.1 = .ok () ∧
      (sampleOld [⟨"notes", false, [], []⟩]).migrate.2.committed.rows (.dictionary .skill) =
        [⟨1, "rust"⟩, ⟨2, "sql"⟩]) ∧
    (sampleOld [⟨"VACANCY_CITY", false, [], []⟩]).migrate.1 ≠ .ok () ∧
      (sampleOld [⟨"VACANCY_CITY", false, [], []⟩]).migrate.2 =
        sampleOld [⟨"VACANCY_CITY", false, [], []⟩] := by
  have hc : ∀ foreign, (sampleOld foreign).Unhindered := fun _ => ⟨rfl, rfl, rfl⟩
  constructor
  · obtain ⟨-, -, -, holder, -⟩ := migrate_all_or_nothing _ (hc [⟨"notes", false, [], []⟩])
    obtain ⟨hiff, hmade, -⟩ := holder (by decide) (by decide)
    have hok := hiff.2 ⟨rfl, by decide⟩
    obtain ⟨-, -, -, hkept, -⟩ := hmade hok
    exact ⟨hok, Database.rows_of_table (hkept (.dictionary .skill) _ rfl)⟩
  · obtain ⟨-, -, -, holder, -⟩ := migrate_all_or_nothing _ (hc [⟨"VACANCY_CITY", false, [], []⟩])
    obtain ⟨hiff, -, hsame⟩ := holder (by decide) (by decide)
    have hrefused : (sampleOld [⟨"VACANCY_CITY", false, [], []⟩]).migrate.1 ≠ .ok () :=
      fun hok => absurd (hiff.1 hok).2 (by decide)
    refine ⟨hrefused, ?_⟩
    cases he : (sampleOld [⟨"VACANCY_CITY", false, [], []⟩]).migrate.1 with
    | ok u => exact absurd he hrefused
    | error e => exact hsame e he

end Connection

end JobBoard.Store
