import JobBoard.Host.Path
import JobBoard.Store.Database

/-!
# Files and folders

The part of a file system that the board touches: folders, and files that hold a database or a text.
A path is walked one component after another, and every component on the way has to be a folder.
-/

namespace JobBoard.Host

open Store

/-- What a file holds: a database with the number of its commits and the journal it keeps, or a
text. -/
inductive Content where
  | database (db : Database) (commits : Nat) (ahead : Bool)
  | text (s : String)
  deriving DecidableEq, Repr

/-- The content of a file that is opened as a database. A text of more than one byte is none. -/
def Content.asDatabase : Content → Content
  | .text s => if s.utf8ByteSize ≤ 1 then .database {} 0 false else .text s
  | content => content

/-- Folders and files by place, which is the components on the way from the root. -/
structure Folders where
  folders : List (List String) := []
  files : List (List String × Content) := []
  deriving DecidableEq, Repr

/-- Why a path cannot be followed, or a folder not be made. -/
inductive PathProblem where
  | missing
  | notAFolder
  | fileExists
  | nameTooLong
  | nul
  deriving DecidableEq, Repr

/-- The wording of a problem. -/
def PathProblem.message : PathProblem → String
  | .missing => "No such file or directory (os error 2)"
  | .notAFolder => "Not a directory (os error 20)"
  | .fileExists => "File exists (os error 17)"
  | .nameTooLong => "File name too long (os error 36)"
  | .nul => "file name contained an unexpected NUL byte"

namespace Folders

/-- The content of a file. -/
def file? (f : Folders) (place : List String) : Option Content :=
  (f.files.find? (·.1 == place)).map (·.2)

/-- Whether a place is a folder; the root is one. -/
def isFolder (f : Folders) (place : List String) : Bool := place.isEmpty || f.folders.contains place

/-- Whether there is something at a place. -/
def has (f : Folders) (place : List String) : Bool := f.isFolder place || (f.file? place).isSome

/-- The files with one written or replaced. -/
def put (f : Folders) (place : List String) (content : Content) : Folders :=
  { f with files := (f.files.filter (·.1 != place)) ++ [(place, content)] }

/-- The place that steps lead to from a place where there is something. -/
def walk (f : Folders) (place : List String) : List String → Except PathProblem (List String)
  | [] => .ok place
  | c :: rest =>
    if !f.isFolder place then .error .notAFolder
    else if c = "." then f.walk place rest
    else if c = ".." then f.walk place.dropLast rest
    else if nameLimit < c.utf8ByteSize then .error .nameTooLong
    else if f.has (place ++ [c]) then f.walk (place ++ [c]) rest
    else .error .missing

/-- The place of something that exists or could be made: all steps but the last lead to a folder. -/
def reach (f : Folders) (steps : List String) : Except PathProblem (List String) :=
  match f.walk [] steps.dropLast, steps.getLast? with
  | .error p, _ => .error p
  | .ok place, last =>
    let c := last.getD "."
    if !f.isFolder place then .error .notAFolder
    else if c = "." || c = ".." then .error .fileExists
    else if nameLimit < c.utf8ByteSize then .error .nameTooLong
    else .ok (place ++ [c])

/-- Makes one folder. -/
def makeFolder (f : Folders) (steps : List String) : Except PathProblem Folders :=
  match f.reach steps with
  | .error p => .error p
  | .ok place =>
    if f.has place then .error .fileExists else .ok { f with folders := f.folders ++ [place] }

/-- Whether steps lead to a folder. -/
def leadsToFolder (f : Folders) (steps : List String) : Bool :=
  match f.walk [] steps with
  | .ok place => f.isFolder place
  | .error _ => false

/-- Makes one folder unless it is there. -/
def ensureFolder (f : Folders) (steps : List String) : Except PathProblem Unit × Folders :=
  match f.makeFolder steps with
  | .ok made => (.ok (), made)
  | .error p => (if p = .fileExists && f.leadsToFolder steps then .ok () else .error p, f)

/-- Makes a folder unless it is there; if the way to it is missing, that is made first. -/
def ensureAfter (above : Folders → Except PathProblem Unit × Folders) (steps : List String)
    (f : Folders) : Except PathProblem Unit × Folders :=
  match f.ensureFolder steps with
  | (.error .missing, f) =>
    match above f with
    | (.ok (), f) => f.ensureFolder steps
    | failed => failed
  | done => done

/-- Makes a folder and all folders on the way to it, given its components from the innermost on. -/
def ensureAll : List String → Folders → Except PathProblem Unit × Folders
  | [], f => (.ok (), f)
  | c :: above, f => ensureAfter (ensureAll above) (c :: above).reverse f

/-- Makes the folder of a path and those above it. What was made on the way stays. -/
def makePath (f : Folders) (path : String) : Except PathProblem Unit × Folders :=
  if holdsNul path then (.error .nul, f)
  else if pathLimit < path.utf8ByteSize then (.error .nameTooLong, f)
  else if (components path).isEmpty then (.ok (), f)
  else ensureAfter (ensureAll (components path).reverse.tail) (steps path) f

/-- Writes a text to the file of a path, which has to lead to no folder. -/
def writeText? (f : Folders) (path text : String) : Option Folders :=
  if holdsNul path || path.toList.getLast? == some '/' then none
  else
    match f.reach (steps path) with
    | .error _ => none
    | .ok place => if f.isFolder place then none else some (f.put place (.text text))

/-- A file with a text added at its end. -/
def append (f : Folders) (place : List String) (text : String) : Folders :=
  match f.file? place with
  | none => f.put place (.text text)
  | some (.text s) => f.put place (.text (s ++ text))
  | some (.database ..) => f

/-- The text of the file of a path. -/
def readText? (f : Folders) (path : String) : Option String :=
  if holdsNul path then none
  else
    match f.walk [] (steps path) with
    | .error _ => none
    | .ok place =>
      match f.file? place with
      | some (.text s) => some s
      | _ => none

end Folders

end JobBoard.Host
