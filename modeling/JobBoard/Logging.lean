import JobBoard.Host.Path
import JobBoard.Observe.Level
import JobBoard.Settings
import JobBoard.Text.OneLine

/-!
# Logging

Logging is switched on once, with a level and a folder, and stays as it was switched on. Asking
again for the same is harmless; asking for something else is refused. An attempt that fails leaves
logging off, so that another may follow.
-/

namespace JobBoard.Logging

open Observe

/-- Why logging was not switched on. -/
inductive Refused where
  | unknownLevel (spelled : String)
  | noFolder
  | relativeFolder (folder : String)
  | folderFailed (folder cause : String)
  | backendFailed
  | otherFolder (active asked : String)
  | otherLevel (active asked : Level)
  deriving DecidableEq, Repr

/-- A text between backticks. -/
def quoted (s : String) : String := "\x60" ++ s ++ "\x60"

/-- The wording of a refusal. -/
def Refused.message : Refused → String
  | .unknownLevel spelled =>
    "unsupported log level " ++ quoted spelled ++ "; expected trace|debug|info|warn|error"
  | .noFolder => "log_dir cannot be empty"
  | .relativeFolder folder => "log_dir must be an absolute path, got " ++ quoted folder
  | .folderFailed folder cause =>
    "failed to create log directory " ++ quoted folder ++ ": " ++ cause
  | .backendFailed => "failed to start logger: Logger initialization failed"
  | .otherFolder active asked =>
    "logging already initialized at " ++ quoted active ++ "; refusing to switch to " ++ quoted asked
  | .otherLevel active asked =>
    "logging already initialized with level " ++ quoted active.text ++ "; refusing to switch to " ++
      quoted asked.text

/-- Settings that are in force. -/
structure Active where
  level : Level
  folder : String
  deriving DecidableEq, Repr

/-- What the surroundings do with an attempt: make the folder or not, start the backend or not. -/
structure Surroundings where
  folder : Except String Unit
  backend : Bool

/-- Settings as they were asked for, made regular: first the level, then the folder. -/
def regular (level folder : String) : Except Refused Active :=
  match Level.parse level with
  | .error spelled => .error (.unknownLevel spelled)
  | .ok l =>
    let folder := Text.trim folder
    if folder = "" then .error .noFolder
    else if Host.isAbsolute folder then .ok ⟨l, folder⟩
    else .error (.relativeFolder folder)

/-- Starts logging where it is off. -/
def start (around : Surroundings) (asked : Active) : Except Refused Active :=
  match around.folder with
  | .error cause => .error (.folderFailed asked.folder cause)
  | .ok () => if around.backend then .ok asked else .error .backendFailed

/-- Whether settings that are asked for are those in force. -/
def agree (active asked : Active) : Except Refused Unit :=
  if !Host.samePath active.folder asked.folder then
    .error (.otherFolder active.folder asked.folder)
  else if active.level ≠ asked.level then .error (.otherLevel active.level asked.level)
  else .ok ()

/-- Switches logging on, given what is in force. -/
def init (around : Surroundings) (level folder : String) (status : Option Active) :
    Except Refused Unit × Option Active :=
  match regular level folder with
  | .error r => (.error r, status)
  | .ok asked =>
    match status with
    | some active => (agree active asked, some active)
    | none =>
      match start around asked with
      | .error r => (.error r, none)
      | .ok active => (.ok (), some active)

/-- Switches logging on from a configuration; without a folder nothing happens. Answers whether
there was one. -/
def initFrom (around : Surroundings) (settings : Settings) (status : Option Active) :
    Except Refused Bool × Option Active :=
  match settings.logDir with
  | none => (.ok false, status)
  | some folder =>
    match init around settings.logLevel folder status with
    | (.ok (), status) => (.ok true, status)
    | (.error r, status) => (.error r, status)

/-- The line written when logging starts. -/
def startLine (a : Active) : Line :=
  ⟨.info, "event=core_init module=core status=ok level=" ++ a.level.text ++
    " log_dir=" ++ a.folder ++ " version=" ++ version⟩

/-- What a crash left behind. -/
inductive Payload where
  | text (s : String)
  | other
  deriving DecidableEq, Repr

/-- The most characters of a payload that the log quotes. -/
def payloadLimit : Nat := 160

/-- The line written about a crash at a place. -/
def crashLine (place : String) (p : Payload) : Line :=
  let text :=
    match p with
    | .text s => s
    | .other => "non-string panic payload"
  ⟨.error, "event=panic_captured module=core status=error location=" ++ place ++ " payload=" ++
    Text.oneLine payloadLimit text⟩

/-- Whether a line is severe enough for a level. -/
def admits (level : Level) (l : Line) : Bool := l.level.rank ≤ level.rank

end JobBoard.Logging
