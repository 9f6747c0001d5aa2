import JobBoard.Logging
import JobBoard.Proofs.Host.Path
import JobBoard.Proofs.Observe.Level

/-!
# Logging starts once

A run of attempts to switch logging on leaves it off up to the first attempt that names a folder and
is told that it succeeded. From then on what that attempt asked for is in force, whatever is asked
afterwards (`status_settled_once`).

An attempt says nothing about the surroundings it meets, so these are part of the run: for every
attempt they make the folder or fail to, and start the backend or do not.
-/

set_option autoImplicit false

namespace JobBoard.Logging

open Observe

/-! ## Attempts -/

/-- How logging is asked for: directly, or by a configuration that may name no folder. -/
inductive Asking where
  | directly (level folder : String)
  | configured (settings : Settings)

/-- The level and the folder that are asked for, if there is a folder. -/
def Asking.wanted? : Asking → Option (String × String)
  | .directly level folder => some (level, folder)
  | .configured settings => settings.logDir.map fun folder => (settings.logLevel, folder)

/-- An attempt to switch logging on, and what the surroundings do with it. -/
structure Attempt where
  asking : Asking
  around : Surroundings

/-- What an attempt is answered, and what is in force after it. Success with a folder is `true`. -/
def Attempt.run (a : Attempt) (status : Option Active) : Except Refused Bool × Option Active :=
  match a.asking with
  | .directly level folder =>
    let (answer, status) := init a.around level folder status
    (answer.map fun () => true, status)
  | .configured settings => initFrom a.around settings status

/-- What is in force after attempts, which start while logging is off. -/
def statusAfter (attempts : List Attempt) : Option Active :=
  attempts.foldl (fun status a => (a.run status).2) none

/-- What an attempt is answered after others. -/
def Attempt.answerAfter (a : Attempt) (before : List Attempt) : Except Refused Bool :=
  (a.run (statusAfter before)).1

theorem statusAfter_append_singleton (attempts : List Attempt) (a : Attempt) :
    statusAfter (attempts ++ [a]) = (a.run (statusAfter attempts)).2 :=
  List.foldl_concat ..

/-! ## Settings that are asked for -/

/-- Settings are regular if the level is known and the folder absolute. -/
theorem regular_eq_ok_iff {level folder : String} {asked : Active} :
    regular level folder = .ok asked ↔ asked.level.Spelled level ∧
      asked.folder = Text.trim folder ∧ Host.isAbsolute (Text.trim folder) = true := by
  rw [regular, ← Level.parse_eq_ok_iff]
  cases Level.parse level with
  | error word => simp
  | ok l =>
    have hempty : Host.isAbsolute "" = false := rfl
    obtain ⟨asked, place⟩ := asked
    dsimp only
    split_ifs with hblank habsolute
    · simp [hblank, hempty]
    · simp [habsolute, eq_comm]
    · simp [habsolute]

theorem regular_of_unknown {level : String} (h : ∀ l : Level, ¬l.Spelled level) (folder : String) :
    ∃ word, regular level folder = .error (.unknownLevel word) := by
  obtain ⟨l, hl, -⟩ | ⟨-, word, hword⟩ := Level.parse_cases level
  · exact absurd hl (h l)
  · exact ⟨word, by rw [regular, hword]⟩

theorem regular_of_blank {level folder : String} {l : Level} (hl : l.Spelled level)
    (hblank : ∀ c ∈ folder.toList, Text.isBlank c = true) :
    regular level folder = .error .noFolder := by
  rw [regular, Level.parse_eq_ok_iff.mpr hl]
  exact if_pos (Text.trim_eq_empty_iff.mpr hblank)

theorem regular_of_relative {level folder : String} {l : Level} (hl : l.Spelled level)
    (hfolder : ∃ c ∈ folder.toList, Text.isBlank c = false)
    (hrelative : Host.isAbsolute (Text.trim folder) = false) :
    regular level folder = .error (.relativeFolder (Text.trim folder)) := by
  have hsome : Text.trim folder ≠ "" := by
    rw [Ne, Text.trim_eq_empty_iff]
    intro hblank
    obtain ⟨c, hc, hnot⟩ := hfolder
    rw [hblank c hc] at hnot
    exact nomatch hnot
  simp [regular, Level.parse_eq_ok_iff.mpr hl, hsome, hrelative]

/-! ## One attempt -/

theorem agree_eq_ok_iff {active asked : Active} :
    agree active asked = .ok () ↔
      active.level = asked.level ∧ Host.samePath active.folder asked.folder = true := by
  rw [agree]
  split_ifs with hfolder hlevel <;> simp_all

theorem start_eq_ok_iff {around : Surroundings} {asked active : Active} :
    start around asked = .ok active ↔
      asked = active ∧ around.folder = .ok () ∧ around.backend = true := by
  rw [start]
  cases around.folder with
  | error cause => simp
  | ok _ => cases around.backend <;> simp

theorem init_of_active (around : Surroundings) (level folder : String) (active : Active) :
    init around level folder (some active) =
      ((regular level folder).bind (agree active), some active) := by
  rw [init]
  cases regular level folder <;> rfl

theorem init_of_off (around : Surroundings) (level folder : String) :
    (∃ r, (regular level folder).bind (start around) = .error r ∧
        init around level folder none = (.error r, none)) ∨
      ∃ active, (regular level folder).bind (start around) = .ok active ∧
        init around level folder none = (.ok (), some active) := by
  rw [init]
  cases regular level folder with
  | error r => exact .inl ⟨r, rfl, rfl⟩
  | ok asked =>
    cases h : start around asked with
    | error r => exact .inl ⟨r, h, by simp only [h]⟩
    | ok active => exact .inr ⟨active, h, by simp only [h]⟩

theorem Attempt.run_of_unwanted {a : Attempt} (h : a.asking.wanted? = none)
    (status : Option Active) : a.run status = (.ok false, status) := by
  obtain ⟨asking, around⟩ := a
  cases asking with
  | directly level folder => exact nomatch h
  | configured settings => simp [run, initFrom, Option.map_eq_none_iff.mp h]

theorem Attempt.run_of_wanted {a : Attempt} {level folder : String}
    (h : a.asking.wanted? = some (level, folder)) (status : Option Active) :
    a.run status = ((init a.around level folder status).1.map fun () => true,
      (init a.around level folder status).2) := by
  obtain ⟨asking, around⟩ := a
  cases asking with
  | directly level folder =>
    cases h
    simp only [run]
  | configured settings =>
    obtain ⟨_, hdir, heq⟩ := Option.map_eq_some_iff.mp h
    cases heq
    simp only [run, initFrom, hdir]
    split <;> simp [*, Except.map]

/-- An attempt is refused and changes nothing, or it names no folder and changes nothing, or it asks
for regular settings. These are put in force only if nothing was. -/
theorem Attempt.run_cases (a : Attempt) (status : Option Active) :
    (∃ r, a.run status = (.error r, status)) ∨
      (a.asking.wanted? = none ∧ a.run status = (.ok false, status)) ∨
      ∃ level folder asked, a.asking.wanted? = some (level, folder) ∧
        regular level folder = .ok asked ∧
        a.run status = (.ok true, some (status.getD asked)) := by
  cases hwanted : a.asking.wanted? with
  | none => exact .inr (.inl ⟨rfl, a.run_of_unwanted hwanted status⟩)
  | some wanted =>
    obtain ⟨level, folder⟩ := wanted
    rw [a.run_of_wanted hwanted]
    cases status with
    | some active =>
      rw [init_of_active]
      cases hasked : regular level folder with
      | error r => exact .inl ⟨r, rfl⟩
      | ok asked =>
        cases hagree : agree active asked with
        | error r => exact .inl ⟨r, by simp [Except.bind, Except.map, hagree]⟩
        | ok _ =>
          exact .inr (.inr ⟨level, folder, asked, rfl, hasked, by
            simp [Except.bind, Except.map, hagree]⟩)
    | none =>
      obtain ⟨r, -, hrun⟩ | ⟨active, hstart, hrun⟩ := init_of_off a.around level folder
      · exact .inl ⟨r, by rw [hrun]; rfl⟩
      · cases hasked : regular level folder with
        | error r =>
          rw [hasked] at hstart
          exact nomatch hstart
        | ok asked =>
          rw [hasked] at hstart
          obtain ⟨rfl, -⟩ := start_eq_ok_iff.mp hstart
          exact .inr (.inr ⟨level, folder, asked, rfl, hasked, by rw [hrun]; rfl⟩)

theorem Attempt.run_of_error {a : Attempt} {status : Option Active} {r : Refused}
    (h : (a.run status).1 = .error r) : (a.run status).2 = status := by
  obtain ⟨_, hrun⟩ | ⟨-, hrun⟩ | ⟨_, _, _, -, -, hrun⟩ := a.run_cases status
  · rw [hrun]
  · rw [hrun]
  · rw [hrun] at h
    exact nomatch h

theorem Attempt.run_of_success {a : Attempt} {level folder : String} {status : Option Active}
    (hwanted : a.asking.wanted? = some (level, folder)) (h : (a.run status).1 = .ok true) :
    ∃ asked, regular level folder = .ok asked ∧ (a.run status).2 = some (status.getD asked) := by
  obtain ⟨_, hrun⟩ | ⟨-, hrun⟩ | ⟨_, _, asked, hwanted', hasked, hrun⟩ := a.run_cases status
  · rw [hrun] at h
    exact nomatch h
  · rw [hrun] at h
    exact nomatch h
  · obtain ⟨rfl, rfl⟩ := Prod.ext_iff.mp (Option.some.inj (hwanted.symm.trans hwanted'))
    exact ⟨asked, hasked, by rw [hrun]⟩

theorem Attempt.run_of_active (a : Attempt) (active : Active) :
    (a.run (some active)).2 = some active := by
  obtain ⟨_, hrun⟩ | ⟨-, hrun⟩ | ⟨_, _, _, -, -, hrun⟩ := a.run_cases (some active) <;> rw [hrun]
  rfl

/-! ## Runs of attempts -/

theorem statusAfter_append_of_active {attempts : List Attempt} {active : Active}
    (h : statusAfter attempts = some active) (more : List Attempt) :
    statusAfter (attempts ++ more) = some active := by
  rw [statusAfter, List.foldl_append]
  change more.foldl _ (statusAfter attempts) = _
  rw [h]
  induction more with
  | nil => rfl
  | cons a more ih => rwa [List.foldl_cons, a.run_of_active]

/-- What is in force was asked for by the first attempt that succeeded with a folder. -/
def StartedBy (attempts : List Attempt) (active : Active) : Prop :=
  ∃ before a after level folder, attempts = before ++ a :: after ∧ statusAfter before = none ∧
    a.asking.wanted? = some (level, folder) ∧ a.answerAfter before = .ok true ∧
    active.level.Spelled level ∧ active.folder = Text.trim folder

theorem isAbsolute_of_startedBy {attempts : List Attempt} {active : Active}
    (h : StartedBy attempts active) : Host.isAbsolute active.folder = true := by
  obtain ⟨before, a, after, level, folder, rfl, -, hwanted, hanswer, -, hfolder⟩ := h
  obtain ⟨asked, hasked, -⟩ := Attempt.run_of_success hwanted hanswer
  rw [hfolder]
  exact (regular_eq_ok_iff.mp hasked).2.2

theorem StartedBy.append {attempts : List Attempt} {active : Active}
    (h : StartedBy attempts active) (more : List Attempt) :
    StartedBy (attempts ++ more) active := by
  obtain ⟨before, a, after, level, folder, rfl, h⟩ := h
  exact ⟨before, a, after ++ more, level, folder, by simp, h⟩

/-- By induction on the attempts: the last one either finds logging on and leaves it as it is, or it
is the first to succeed. -/
theorem startedBy_of_statusAfter {attempts : List Attempt} {active : Active}
    (h : statusAfter attempts = some active) : StartedBy attempts active := by
  induction attempts using List.reverseRecOn with
  | nil => exact nomatch h
  | append_singleton before a ih =>
    rw [statusAfter_append_singleton] at h
    cases hbefore : statusAfter before with
    | some earlier =>
      rw [hbefore, a.run_of_active] at h
      exact (ih (hbefore.trans h)).append [a]
    | none =>
      rw [hbefore] at h
      obtain ⟨_, hrun⟩ | ⟨-, hrun⟩ | ⟨level, folder, asked, hwanted, hasked, hrun⟩ :=
        a.run_cases none
      · rw [hrun] at h
        exact nomatch h
      · rw [hrun] at h
        exact nomatch h
      · rw [hrun] at h
        obtain rfl : asked = active := Option.some.inj h
        obtain ⟨hlevel, hfolder, -⟩ := regular_eq_ok_iff.mp hasked
        refine ⟨before, a, [], level, folder, rfl, hbefore, hwanted, ?_, hlevel, hfolder⟩
        rw [Attempt.answerAfter, hbefore, hrun]

theorem statusAfter_of_startedBy {attempts : List Attempt} {active : Active}
    (h : StartedBy attempts active) : statusAfter attempts = some active := by
  obtain ⟨before, a, after, level, folder, rfl, hoff, hwanted, hanswer, hlevel, hfolder⟩ := h
  obtain ⟨asked, hasked, hafter⟩ := Attempt.run_of_success hwanted hanswer
  -- what the attempt asked for is regular in one way only
  have hactive : regular level folder = .ok active :=
    regular_eq_ok_iff.mpr ⟨hlevel, hfolder, (regular_eq_ok_iff.mp hasked).2.2⟩
  obtain rfl : asked = active := Except.ok.inj (hasked.symm.trans hactive)
  have hfirst : statusAfter (before ++ [a]) = some asked := by
    rw [statusAfter_append_singleton, hafter, hoff]
    rfl
  rw [List.append_cons]
  exact statusAfter_append_of_active hfirst after

/-- Logging is off exactly as long as no attempt succeeded with a folder. -/
theorem statusAfter_eq_none_iff (attempts : List Attempt) :
    statusAfter attempts = none ↔
      ∀ before a after, attempts = before ++ a :: after → a.answerAfter before ≠ .ok true := by
  constructor
  · rintro hoff before a after rfl hanswer
    cases hwanted : a.asking.wanted? with
    | none =>
      rw [Attempt.answerAfter, a.run_of_unwanted hwanted] at hanswer
      exact nomatch hanswer
    | some wanted =>
      obtain ⟨asked, -, hafter⟩ := Attempt.run_of_success hwanted hanswer
      have hfirst := (statusAfter_append_singleton before a).trans hafter
      rw [List.append_cons, statusAfter_append_of_active hfirst after] at hoff
      exact nomatch hoff
  · intro hnone
    rw [Option.eq_none_iff_forall_ne_some]
    intro active hactive
    obtain ⟨before, a, after, _, _, hsplit, -, -, hanswer, -⟩ := startedBy_of_statusAfter hactive
    exact hnone before a after hsplit hanswer

/-! ## Answers -/

/-- How an attempt that names a folder is answered, given what is in force. -/
structure Answers (status : Option Active) (around : Surroundings) (level folder : String)
    (answer : Except Refused Bool) : Prop where
  /-- A level that is not known is refused first. -/
  unknown : (∀ l : Level, ¬l.Spelled level) → ∃ word, answer = .error (.unknownLevel word)
  /-- A folder of blanks alone is none. -/
  blank {l : Level} : l.Spelled level → (∀ c ∈ folder.toList, Text.isBlank c = true) →
    answer = .error .noFolder
  /-- Any other folder has to start at the root. -/
  relative {l : Level} : l.Spelled level → (∃ c ∈ folder.toList, Text.isBlank c = false) →
    Host.isAbsolute (Text.trim folder) = false →
    answer = .error (.relativeFolder (Text.trim folder))
  /-- While logging is off, the surroundings have to make the folder and to start the backend. -/
  first : status = none → (answer = .ok true ↔ (∃ l : Level, l.Spelled level) ∧
    Host.isAbsolute (Text.trim folder) = true ∧ around.folder = .ok () ∧ around.backend = true)
  /-- What is in force may be asked for again. The surroundings are left alone. -/
  again {active : Active} : status = some active → (answer = .ok true ↔
    active.level.Spelled level ∧ Host.isAbsolute (Text.trim folder) = true ∧
      ∃ names, Host.Spells active.folder.toList names ∧
        Host.Spells (Text.trim folder).toList names)
  /-- There is no third answer. -/
  total : answer = .ok true ∨ ∃ r, answer = .error r

theorem Attempt.answer_of_error {a : Attempt} {level folder : String} {r : Refused}
    (hwanted : a.asking.wanted? = some (level, folder)) (h : regular level folder = .error r)
    (status : Option Active) : (a.run status).1 = .error r := by
  simp only [a.run_of_wanted hwanted, init, h, Except.map]

theorem Attempt.answer_eq_ok_iff {a : Attempt} {level folder : String}
    (hwanted : a.asking.wanted? = some (level, folder)) (status : Option Active) :
    (a.run status).1 = .ok true ↔ (init a.around level folder status).1 = .ok () := by
  rw [a.run_of_wanted hwanted]
  cases (init a.around level folder status).1 <;> simp [Except.map]

theorem bind_eq_ok_iff {α β : Type} {x : Except Refused α} {f : α → Except Refused β} {b : β} :
    x.bind f = .ok b ↔ ∃ a, x = .ok a ∧ f a = .ok b := by
  cases x with
  | error r => simp [Except.bind]
  | ok a => simp [Except.bind]

theorem init_off_eq_ok_iff {around : Surroundings} {level folder : String} :
    (init around level folder none).1 = .ok () ↔ (∃ l : Level, l.Spelled level) ∧
      Host.isAbsolute (Text.trim folder) = true ∧ around.folder = .ok () ∧
      around.backend = true := by
  have hinit : (init around level folder none).1 = .ok () ↔
      ∃ active, (regular level folder).bind (start around) = .ok active := by
    obtain ⟨r, hbind, hrun⟩ | ⟨active, hbind, hrun⟩ := init_of_off around level folder <;>
      simp [hbind, hrun]
  rw [hinit]
  constructor
  · rintro ⟨active, hactive⟩
    obtain ⟨asked, hasked, hstart⟩ := bind_eq_ok_iff.mp hactive
    obtain ⟨hlevel, -, habsolute⟩ := regular_eq_ok_iff.mp hasked
    exact ⟨⟨_, hlevel⟩, habsolute, (start_eq_ok_iff.mp hstart).2⟩
  · rintro ⟨⟨l, hl⟩, habsolute, hmade, hbackend⟩
    have hasked : regular level folder = .ok ⟨l, Text.trim folder⟩ :=
      regular_eq_ok_iff.mpr ⟨hl, rfl, habsolute⟩
    exact ⟨_, bind_eq_ok_iff.mpr ⟨_, hasked, start_eq_ok_iff.mpr ⟨rfl, hmade, hbackend⟩⟩⟩

theorem init_active_eq_ok_iff {around : Surroundings} {level folder : String} {active : Active}
    (hactive : Host.isAbsolute active.folder = true) :
    (init around level folder (some active)).1 = .ok () ↔ active.level.Spelled level ∧
      Host.isAbsolute (Text.trim folder) = true ∧
      ∃ names, Host.Spells active.folder.toList names ∧
        Host.Spells (Text.trim folder).toList names := by
  rw [init_of_active]
  dsimp only
  rw [bind_eq_ok_iff]
  constructor
  · rintro ⟨asked, hasked, hagree⟩
    obtain ⟨hlevel, hfolder, habsolute⟩ := regular_eq_ok_iff.mp hasked
    obtain ⟨hsame, hpath⟩ := agree_eq_ok_iff.mp hagree
    rw [hfolder, Host.samePath_iff hactive habsolute] at hpath
    exact ⟨hsame ▸ hlevel, habsolute, hpath⟩
  · rintro ⟨hlevel, habsolute, hpath⟩
    rw [← Host.samePath_iff hactive habsolute] at hpath
    exact ⟨⟨active.level, Text.trim folder⟩, regular_eq_ok_iff.mpr ⟨hlevel, rfl, habsolute⟩,
      agree_eq_ok_iff.mpr ⟨rfl, hpath⟩⟩

theorem Attempt.answers {a : Attempt} {level folder : String}
    (hwanted : a.asking.wanted? = some (level, folder)) {status : Option Active}
    (hstatus : ∀ active, status = some active → Host.isAbsolute active.folder = true) :
    Answers status a.around level folder (a.run status).1 where
  unknown h := by
    obtain ⟨word, hword⟩ := regular_of_unknown h folder
    exact ⟨word, a.answer_of_error hwanted hword status⟩
  blank hl hblank := a.answer_of_error hwanted (regular_of_blank hl hblank) status
  relative hl hfolder hrelative :=
    a.answer_of_error hwanted (regular_of_relative hl hfolder hrelative) status
  first hoff := by
    rw [a.answer_eq_ok_iff hwanted, hoff, init_off_eq_ok_iff]
  again hactive := by
    rw [a.answer_eq_ok_iff hwanted, hactive, init_active_eq_ok_iff (hstatus _ hactive)]
  total := by
    rw [a.run_of_wanted hwanted]
    cases (init a.around level folder status).1 with
    | error r => exact .inr ⟨r, rfl⟩
    | ok _ => exact .inl rfl

/-- Logging starts once. It is off up to the first attempt that succeeds with a folder, and what
that attempt asked for is in force from then on. An attempt that is refused changes nothing, and
neither does one without a folder, which is not refused. Every other attempt is answered by what is
in force when it is made. -/
theorem status_settled_once (attempts : List Attempt) :
    (statusAfter attempts = none ↔
      ∀ before a after, attempts = before ++ a :: after → a.answerAfter before ≠ .ok true) ∧
    (∀ active, statusAfter attempts = some active ↔ StartedBy attempts active) ∧
    (∀ active, statusAfter attempts = some active →
      ∀ more, statusAfter (attempts ++ more) = some active) ∧
    ∀ a : Attempt,
      (∀ r, a.answerAfter attempts = .error r →
        statusAfter (attempts ++ [a]) = statusAfter attempts) ∧
      (a.asking.wanted? = none → a.answerAfter attempts = .ok false ∧
        statusAfter (attempts ++ [a]) = statusAfter attempts) ∧
      ∀ level folder, a.asking.wanted? = some (level, folder) →
        Answers (statusAfter attempts) a.around level folder (a.answerAfter attempts) := by
  refine ⟨statusAfter_eq_none_iff attempts, fun active => ?_, fun active hactive more => ?_,
    fun a => ⟨fun r hr => ?_, fun hwanted => ?_, fun level folder hwanted => ?_⟩⟩
  · exact ⟨startedBy_of_statusAfter, statusAfter_of_startedBy⟩
  · exact statusAfter_append_of_active hactive more
  · rw [statusAfter_append_singleton]
    exact a.run_of_error hr
  · rw [statusAfter_append_singleton, Attempt.answerAfter, a.run_of_unwanted hwanted]
    exact ⟨rfl, rfl⟩
  · refine a.answers hwanted fun active hactive => ?_
    exact isAbsolute_of_startedBy (startedBy_of_statusAfter hactive)

/-- Attempts of which the first three leave logging off: the level is unknown, the folder cannot be
made, no folder is named. -/
def sampleAttempts : List Attempt :=
  [⟨.directly "verbose" "/srv/log", ⟨.ok (), true⟩⟩,
    ⟨.directly "info" "/root/log", ⟨.error "Permission denied (os error 13)", true⟩⟩,
    ⟨.configured {}, ⟨.ok (), true⟩⟩,
    ⟨.directly " Warning\n" " /srv//log/ ", ⟨.ok (), true⟩⟩,
    ⟨.directly "warn" "/tmp", ⟨.ok (), true⟩⟩]

theorem status_settled_once_sample :
    (∀ more, statusAfter (sampleAttempts ++ more) = some ⟨.warn, "/srv//log/"⟩) ∧
      Attempt.answerAfter
        ⟨.directly "WARN" "/srv/./log", ⟨.error "File exists (os error 17)", false⟩⟩
        sampleAttempts = .ok true := by
  have hstatus : statusAfter sampleAttempts = some ⟨.warn, "/srv//log/"⟩ := by decide +kernel
  obtain ⟨-, -, hstays, hanswers⟩ := status_settled_once sampleAttempts
  refine ⟨hstays _ hstatus, ((hanswers _).2.2 _ _ rfl).again hstatus |>.mpr ⟨?_, ?_, ?_⟩⟩
  · exact ⟨"WARN".toList, Text.isTrimmed_trimList "WARN".toList, by decide +kernel⟩
  · decide +kernel
  · have hsrv : Host.IsComponent "srv".toList := ⟨by decide, by decide, by decide⟩
    have hlog : Host.IsComponent "log".toList := ⟨by decide, by decide, by decide⟩
    exact ⟨["srv".toList, "log".toList],
      .component hsrv (.separator (.component hlog (.separator .done))),
      .component hsrv (.dot (.component hlog .done))⟩

end JobBoard.Logging
