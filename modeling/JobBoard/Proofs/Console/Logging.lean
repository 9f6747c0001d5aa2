import JobBoard.Console.Command
import JobBoard.Proofs.Host.Folders
import JobBoard.Proofs.Logging.Status

/-!
# The console and the state of logging

On a desk the files decide whether a folder can be made, and the backend is free or taken. What an
attempt makes of that is the same as in a run of attempts with given surroundings
(`logging_attempt`), so logging starts once on a desk as well (`logging_afterAttempts`).
-/

set_option autoImplicit false

namespace JobBoard.Console

open Host Logging

/-- The folder that is asked for. -/
def folderOf : Asking → String
  | .directly _ folder => folder
  | .configured settings => settings.logDir.getD ""

/-- How the console puts an answer. -/
def replyTo (asking : Asking) : Except Refused Bool → Reply
  | .error r => .loggingFailed r
  | .ok b =>
    match asking with
    | .directly .. => .done
    | .configured _ => .flag b

namespace Desk

/-- Runs an attempt. -/
def attempt (desk : Desk) : Asking → Reply × Desk
  | .directly level folder => desk.initLogging level folder
  | .configured settings => desk.initLoggingFrom settings

/-- An attempt with the surroundings it meets on a desk. -/
def met (desk : Desk) (asking : Asking) : Attempt :=
  ⟨asking, (desk.surroundings (folderOf asking)).1⟩

theorem logging_write (desk : Desk) (lines : List Observe.Line) :
    (desk.write lines).logging = desk.logging := by
  rw [write]
  cases hbackend : desk.backend <;> simp [logging, setFolders, hbackend]

/-- Logging starts where the backend is free. -/
theorem logging_startLogging (desk : Desk) {asked : Active} {place : List String}
    (hoff : desk.logging = none)
    (hplace : desk.registry.folders.walk [] (steps asked.folder) = .ok place) :
    (desk.startLogging asked).logging = if desk.backend = .free then some asked else none := by
  rw [startLogging]
  cases hbackend : desk.backend with
  | free =>
    simp only [hplace]
    exact logging_write _ _
  | taken level => rfl
  | active settings file =>
    rw [logging, hbackend] at hoff
    exact nomatch hoff

/-- Whether an attempt is on its way to start logging is decided by what is in force, then by what
is asked for, then by the folder and at last by the backend. -/
theorem logging_afterAttempt (desk : Desk) (level folder : String) :
    (desk.afterAttempt level folder).logging =
      (init (desk.surroundings folder).1 level folder desk.logging).2 := by
  rw [afterAttempt]
  cases hlogging : desk.logging with
  | some active =>
    rw [init_of_active]
    exact hlogging
  | none =>
    cases hasked : regular level folder with
    | error r => simp [init, hasked, hlogging]
    | ok asked =>
      have hfolder : asked.folder = Text.trim folder := (regular_eq_ok_iff.mp hasked).2.1
      simp only [init, hasked, surroundings]
      cases hmade : desk.registry.folders.makePath (Text.trim folder) with
      | mk made folders =>
        cases made with
        | error problem =>
          simp only [start, Except.mapError]
          exact hlogging
        | ok _ =>
          -- the line about the start goes to a file in the folder, which has to be found again
          obtain ⟨place, hplace⟩ := Folders.walk_of_makePath hmade
          have hstarted := logging_startLogging (desk.setFolders folders) hlogging
            (hfolder ▸ hplace)
          by_cases hfree : desk.backend = .free <;>
            simpa [start, Except.mapError, setFolders, hfree] using hstarted

/-- An attempt on a desk is answered as one that meets the same surroundings. -/
theorem answer_attempt (desk : Desk) (asking : Asking) :
    (desk.attempt asking).1 = replyTo asking ((desk.met asking).run desk.logging).1 := by
  cases asking with
  | directly level folder =>
    simp only [attempt, initLogging, met, folderOf, Attempt.run]
    cases (init (desk.surroundings folder).1 level folder desk.logging).1 <;> rfl
  | configured settings =>
    simp only [attempt, initLoggingFrom, met, folderOf, Attempt.run]
    cases (initFrom (desk.surroundings (settings.logDir.getD "")).1 settings desk.logging).1 <;> rfl

/-- An attempt on a desk leaves in force what one does that meets the same surroundings. -/
theorem logging_attempt (desk : Desk) (asking : Asking) :
    (desk.attempt asking).2.logging = ((desk.met asking).run desk.logging).2 := by
  cases asking with
  | directly level folder =>
    have hafter : (desk.initLogging level folder).2 = desk.afterAttempt level folder := by
      rw [initLogging]
      split <;> rfl
    simp only [attempt, hafter, logging_afterAttempt, met, folderOf, Attempt.run]
  | configured settings =>
    have hafter : (desk.initLoggingFrom settings).2 = if settings.logDir.isSome then
        desk.afterAttempt settings.logLevel (settings.logDir.getD "") else desk := by
      rw [initLoggingFrom]
      split <;> rfl
    simp only [attempt, hafter, met, folderOf, Attempt.run, initFrom]
    cases settings.logDir with
    | none => rfl
    | some folder =>
      simp only [Option.isSome_some, if_true, Option.getD_some, logging_afterAttempt]
      split <;> simp [*]

/-! ## Runs of attempts -/

/-- The desk after attempts. -/
def afterAttempts (desk : Desk) (askings : List Asking) : Desk :=
  askings.foldl (fun desk asking => (desk.attempt asking).2) desk

/-- Attempts one after another, each with the surroundings it meets. -/
def allMet (desk : Desk) : List Asking → List Attempt
  | [] => []
  | asking :: rest => desk.met asking :: (desk.attempt asking).2.allMet rest

/-- In force on a desk is what the attempts leave in force that meet the same surroundings. -/
theorem logging_afterAttempts {desk : Desk} (hoff : desk.logging = none) (askings : List Asking) :
    (desk.afterAttempts askings).logging = statusAfter (desk.allMet askings) := by
  have hrun : ∀ desk : Desk, (desk.afterAttempts askings).logging =
      (desk.allMet askings).foldl (fun status a => (a.run status).2) desk.logging := by
    induction askings with
    | nil => exact fun desk => rfl
    | cons asking askings ih =>
      intro desk
      rw [allMet, List.foldl_cons, ← logging_attempt]
      exact ih (desk.attempt asking).2
  rw [hrun, hoff, statusAfter]

end Desk

end JobBoard.Console
