import JobBoard.Call.NamedEdges
import JobBoard.Call.Rival
import JobBoard.Call.Search
import JobBoard.Console.Statement
import JobBoard.Host.Registry
import JobBoard.Logging.File

/-!
# Commands of the console

The console holds the files, the open connections and the state of logging, and runs one command
after another: opening and closing, plain statements, the calls of the board, and everything about
logging.
-/

namespace JobBoard.Console

open Cancel Host Observe Store

/-- A call of the board. -/
inductive BoardCall where
  | findIdByName (d : Dictionary) (name : String)
  | insertName (d : Dictionary) (name : String)
  | resolve (d : Dictionary) (name : String)
  | resolveAll (d : Dictionary) (names : List String)
  | resolveAgainst (rivalId : Option Int) (move : RivalMove) (d : Dictionary) (name : String)
  | getById (d : Dictionary) (id : Int)
  | getByIds (d : Dictionary) (ids : List Int)
  | listAll (d : Dictionary)
  | findIdsByNames (d : Dictionary) (names : List String)
  | associate (k : EdgeKind) (owner : Int) (ids : List Int)
  | listForOwner (k : EdgeKind) (owner : Int)
  | clearOwner (k : EdgeKind) (owner : Int)
  | attachNames (k : EdgeKind) (owner : Int) (names : List String)
  | replaceNames (k : EdgeKind) (owner : Int) (names : List String)
  | attached (k : EdgeKind) (owner : Int)
  | search (limits : SearchLimits) (criteria : Search.Criteria)
  | searchFor (limits : SearchLimits) (request : SearchRequest)

/-- The reply and the state after an answered call. -/
def answered {α : Type} (f : α → Reply) (r : Answered Call α) : Reply × Call :=
  (.ofBoard f r.1, r.2)

/-- The reply and the state after a call on the store alone. -/
def stored {α : Type} (f : α → Reply) (r : Stored Call α) : Reply × Call :=
  (.ofStore f r.1, r.2)

/-- Runs a call of the board. -/
def BoardCall.run (b : BoardCall) (s : Call) : Reply × Call :=
  match b with
  | .findIdByName d name => stored .optionalNumber (s.findId d name)
  | .insertName d name => stored .number (s.insertName d name)
  | .resolve d name => answered .number (s.resolve d name)
  | .resolveAll d names => answered .numbers (s.resolveAll d names)
  | .resolveAgainst id move d name => answered .number (s.resolveAgainst id move d name)
  | .getById d id => answered .entry (s.getById d id)
  | .getByIds d ids => answered .entries (s.getByIds d ids)
  | .listAll d => answered .entries (s.listAll d)
  | .findIdsByNames d names => answered .numbers (s.findIdsByNames d names)
  | .associate k owner ids => answered (fun _ => .done) (s.associate k owner ids)
  | .listForOwner k owner => answered .entries (s.listForOwner k owner)
  | .clearOwner k owner => answered (fun n : Nat => .number n) (s.clearOwner k owner)
  | .attachNames k owner names => answered .numbers (s.attachNames k owner names)
  | .replaceNames k owner names => answered .numbers (s.replaceNames k owner names)
  | .attached k owner => answered .entries (s.attached k owner)
  | .search limits criteria => answered .summaries (s.search limits criteria)
  | .searchFor limits request => answered .summaries (s.searchFor limits request)

/-- How a connection is to be opened. -/
inductive OpenRequest where
  | memory
  | file (path : String) (settings : DatabaseSettings)
  | plainMemory
  | plainFile (path : String)
  deriving DecidableEq, Repr

/-- Who takes the lines that are logged. -/
inductive Backend where
  /-- Nobody. -/
  | free
  /-- Another program, which is handed lines up to a level; without one it is handed none. -/
  | taken (level : Option Level)
  /-- The log file at a place. -/
  | active (settings : Logging.Active) (file : List String)
  deriving DecidableEq, Repr

/-- The state of the console. -/
structure Desk where
  registry : Registry := {}
  backend : Backend := .free
  /-- Whether the program has come to an end. -/
  ended : Bool := false

namespace Desk

/-- The desk with other folders. -/
def setFolders (desk : Desk) (folders : Folders) : Desk :=
  { desk with registry := { desk.registry with folders } }

/-- The settings of the log in force. -/
def logging (desk : Desk) : Option Logging.Active :=
  match desk.backend with
  | .active settings _ => some settings
  | _ => none

/-- The desk after some lines were logged; only severe enough ones reach the file. -/
def write (desk : Desk) (lines : List Line) : Desk :=
  match desk.backend with
  | .active settings file =>
    let text := String.join ((lines.filter (Logging.admits settings.level)).map Logging.fileLine)
    desk.setFolders (desk.registry.folders.append file text)
  | _ => desk

/-- The lines that another program is handed. -/
def handed (desk : Desk) (lines : List Line) : List Line :=
  match desk.backend with
  | .taken (some level) => lines.filter (Logging.admits level)
  | _ => []

/-- Opens a connection. -/
def openConnection (desk : Desk) (name : String) (how : OpenRequest) : Reply × List Note × Desk :=
  let o :=
    match how with
    | .memory => desk.registry.openMemory name
    | .file path settings => desk.registry.openFile name path settings
    | .plainMemory => desk.registry.openPlain name none
    | .plainFile path => desk.registry.openPlain name (some path)
  (.ofStore (fun _ => .done) o.outcome, o.notes,
    { desk with registry := o.registry, ended := o.crashes })

/-- Closes a connection. -/
def close (desk : Desk) (name : String) : Desk :=
  { desk with registry := desk.registry.close name }

/-- Whether a connection is open. -/
def isOpen (desk : Desk) (name : String) : Bool := (desk.registry.seat? name).isSome

/-- Opens a connection in memory unless one of that name is open. -/
def ensureOpen (desk : Desk) (name : String) : Desk :=
  if desk.isOpen name then desk
  else
    let (_, notes, desk) := desk.openConnection name .memory
    desk.write (lines false "" notes)

/-- Writes a file with some text. -/
def writeFile (desk : Desk) (path text : String) : Reply × Desk :=
  match desk.registry.folders.writeText? path text with
  | some folders => (.done, desk.setFolders folders)
  | none => (.meaningless, desk)

/-- Runs a plain statement on an open connection. -/
def runStatement (desk : Desk) (name : String) (s : Statement) : Reply × Desk :=
  match desk.registry.connection? name with
  | none => (.meaningless, desk)
  | some c =>
    let (reply, c) := s.run c
    (reply, { desk with registry := desk.registry.keep name c })

/-- Runs a call of the board on an open connection. -/
def runCall (desk : Desk) (name : String) (signal : Signal) (b : BoardCall) :
    Reply × List Note × Desk :=
  match desk.registry.connection? name with
  | none => (.meaningless, [], desk)
  | some c =>
    let (reply, s) := b.run { connection := c, signal, taken := desk.registry.taken name }
    (reply, s.notes, { desk with registry := desk.registry.keepCall name s.connection s.taken })

/-- The row counts of a connection that is open. -/
def countRows (desk : Desk) (name : String) : Option (List (Option Nat)) × Desk :=
  match desk.registry.connection? name with
  | none => (none, desk)
  | some c =>
    let (ns, c) := counts c
    (some ns, { desk with registry := desk.registry.keep name c })

/-- The desk after the first attempt to log to a folder that there is. The attempt raises or lowers
what another program is handed, even though it fails then. -/
def startLogging (desk : Desk) (asked : Logging.Active) : Desk :=
  match desk.backend with
  | .free =>
    match desk.registry.folders.walk [] (steps asked.folder) with
    | .ok place =>
      { desk with backend := .active asked (place ++ [Logging.fileName]) }.write
        [Logging.startLine asked]
    | .error _ => desk
  | .taken _ => { desk with backend := .taken (some asked.level) }
  | .active .. => desk

/-- What the surroundings do with an attempt to log to a folder, and the desk after an attempt that
gets so far. What was made of the folder stays. -/
def surroundings (desk : Desk) (folder : String) : Logging.Surroundings × Desk :=
  let (made, folders) := desk.registry.folders.makePath (Text.trim folder)
  (⟨made.mapError PathProblem.message, desk.backend == .free⟩, desk.setFolders folders)

/-- The desk after an attempt to switch logging on. -/
def afterAttempt (desk : Desk) (level folder : String) : Desk :=
  match desk.logging, Logging.regular level folder with
  | none, .ok asked =>
    match desk.surroundings folder with
    | (⟨.ok (), _⟩, desk) => desk.startLogging asked
    | (⟨.error _, _⟩, desk) => desk
  | _, _ => desk

/-- Switches logging on. -/
def initLogging (desk : Desk) (level folder : String) : Reply × Desk :=
  match (Logging.init (desk.surroundings folder).1 level folder desk.logging).1 with
  | .ok () => (.done, desk.afterAttempt level folder)
  | .error r => (.loggingFailed r, desk.afterAttempt level folder)

/-- Switches logging on from a configuration. -/
def initLoggingFrom (desk : Desk) (settings : Settings) : Reply × Desk :=
  let folder := settings.logDir.getD ""
  let after :=
    if settings.logDir.isSome then desk.afterAttempt settings.logLevel folder else desk
  match (Logging.initFrom (desk.surroundings folder).1 settings desk.logging).1 with
  | .ok b => (.flag b, after)
  | .error r => (.loggingFailed r, after)

/-- Another program takes the backend, which can only happen while it is free. It is handed nothing
until a level is asked for. -/
def takeBackend (desk : Desk) : Desk :=
  if desk.backend = .free then { desk with backend := .taken none } else desk

/-- A crash, which the log notices once logging is on. -/
def crash (desk : Desk) (p : Logging.Payload) : Desk :=
  desk.write [Logging.crashLine untold p]

/-- What is shown of the log in a folder. -/
def logLines (desk : Desk) (folder : String) : List String :=
  match desk.registry.folders.readText? (folder ++ "/" ++ Logging.fileName) with
  | some text => Logging.readFile text
  | none => []

end Desk

end JobBoard.Console
