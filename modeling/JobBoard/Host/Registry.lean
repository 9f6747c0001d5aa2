import JobBoard.Host.Address
import JobBoard.Observe.Event
import JobBoard.Settings
import JobBoard.Store.Migration

/-!
# Open connections

Connections by name, some of them to the same file. A connection is brought up to date with its file
before it is used, and what it committed is put back afterwards.
-/

namespace JobBoard.Host

open Observe Store

/-- An open connection, the place of its file unless it has a database of its own, and the steps of
the statements that it keeps. -/
structure Seat where
  name : String
  place : Option (List String)
  connection : Connection
  taken : Taken := []
  deriving DecidableEq, Repr

/-- Files, and the connections to them. -/
structure Registry where
  folders : Folders := {}
  seats : List Seat := []
  deriving DecidableEq, Repr

namespace Registry

/-- The seat of a name. -/
def seat? (r : Registry) (name : String) : Option Seat := r.seats.find? (·.name == name)

/-- What the transactions of others to a file hold together. -/
def elsewhere (r : Registry) (name : String) (place : List String) : Elsewhere :=
  let held := (r.seats.filter fun s => s.name != name && s.place == some place).filterMap
    (·.connection.transaction)
  { reading := held.any fun t => t.view.isSome
    writing := held.any fun t => t.writing || t.exclusive
    exclusive := held.any (·.exclusive) }

/-- A connection brought up to date with its file. -/
def refresh (r : Registry) (name : String) (place : Option (List String)) (c : Connection) :
    Connection :=
  match place with
  | none => c
  | some p =>
    let elsewhere := r.elsewhere name p
    match (r.folders.file? p).map Content.asDatabase with
    | some (.database db commits ahead) =>
      { c with
        committed := db, commits, journal := if ahead then .ahead else .rollback
        readable := true, elsewhere }
    | _ => { c with readable := false, elsewhere }

/-- The connection of a name, ready for use. -/
def connection? (r : Registry) (name : String) : Option Connection :=
  (r.seat? name).map fun s => r.refresh name s.place s.connection

/-- The files after a connection was used. -/
def putBack (r : Registry) (place : Option (List String)) (c : Connection) : Folders :=
  match place with
  | some p =>
    if c.readable then r.folders.put p (.database c.committed c.commits (c.journal == .ahead))
    else r.folders
  | none => r.folders

/-- A connection after use: it remembers the tables that it could see. -/
def remember (c : Connection) : Connection :=
  if c.readBlocked then c else { c with known := some c.view }

/-- The registry after the connection of a name was used. -/
def keep (r : Registry) (name : String) (c : Connection) : Registry :=
  match r.seat? name with
  | none => r
  | some s =>
    let connection := remember c
    { folders := r.putBack s.place c
      seats := r.seats.map fun t => if t.name == name then { t with connection } else t }

/-- The steps of the statements that the connection of a name keeps. -/
def taken (r : Registry) (name : String) : Taken := ((r.seat? name).map Seat.taken).getD []

/-- The registry after a call on the connection of a name. -/
def keepCall (r : Registry) (name : String) (c : Connection) (taken : Taken) : Registry :=
  let r := r.keep name c
  { r with seats := r.seats.map fun t => if t.name == name then { t with taken } else t }

/-- The registry without the connection of a name; its transaction is undone. -/
def close (r : Registry) (name : String) : Registry :=
  { r with seats := r.seats.filter (·.name != name) }

/-- The registry with a new connection. -/
def seatNew (r : Registry) (s : Seat) : Registry :=
  { folders := r.putBack s.place s.connection
    seats := (r.seats.filter (·.name != s.name)) ++
      [{ s with connection := remember s.connection }] }

/-- Switches a connection to the write-ahead journal, for which nobody else may be at work. -/
def switchAhead (c : Connection) : Except Refusal Unit × Connection :=
  if !c.readable then (.error .notADatabase, c)
  else if c.journal == .ahead then (.ok (), c)
  else if c.readBlocked then (.error .locked, c)
  else if c.readOnly then (.error .readOnly, c)
  else if c.elsewhere.reading || c.elsewhere.writing || c.elsewhere.exclusive then
    (.error .locked, c)
  else (.ok (), { c with journal := .ahead })

/-- Makes a connection ready: journal, then schema. -/
def prepare (wal : Bool) (c : Connection) : Except StoreError Unit × Connection :=
  match if wal then switchAhead c else (.ok (), c) with
  | (.error cause, c) => (.error (.refused cause), c)
  | (.ok (), c) => c.migrate

/-- What opening a connection came to: the outcome, the notes, and the registry. A wait that is out
of range brings the program to an end. -/
structure Opening where
  outcome : Except StoreError Unit
  crashes : Bool := false
  notes : List Note := []
  registry : Registry

/-- The longest wait for a lock that can be asked for. -/
def longestWaitMs : Nat := 2147483647

/-- Prepares a new connection and gives it a seat if that succeeds. The journal is switched only
where there is a file. -/
def settle (r : Registry) (mode : OpenMode) (wal : Bool) (s : Seat) : Opening :=
  match prepare (wal && s.place.isSome) s.connection with
  | (.ok (), c) =>
    { outcome := .ok (), notes := [.opening mode, .opened mode]
      registry := r.seatNew { s with connection := c } }
  | (.error e, c) =>
    { outcome := .error e, notes := [.opening mode, .openFailed mode true e]
      registry := { r with folders := r.putBack s.place c } }

/-- Opens a database in memory, ready for use. -/
def openMemory (r : Registry) (name : String) : Opening :=
  (r.close name).settle .memory false { name, place := none, connection := {} }

/-- A new connection, started from a blank one, to what an address stands for. -/
def connect (r : Registry) (name address : String) (blank : Connection) :
    Except StoreFault (Seat × Registry) :=
  match Target.ofName address with
  | .error fault => .error fault
  | .ok .memory => .ok ({ name, place := none, connection := blank }, r)
  | .ok .temporary =>
    .ok ({ name, place := none, connection := { blank with journal := .rollback } }, r)
  | .ok (.file path access) =>
    match r.folders.openDatabase? path access with
    | none => .error (.refused (.cannotOpen address))
    | some (place, folders) =>
      let r := { r with folders }
      let c := r.refresh name (some place) { blank with readOnly := access == .readOnly }
      .ok ({ name, place := some place, connection := c }, r)

/-- Opens a database file, ready for use. -/
def openFile (r : Registry) (name address : String) (settings : DatabaseSettings) : Opening :=
  let r := r.close name
  match r.connect name address { busyTimeoutMs := settings.busyTimeoutMs } with
  | .error fault =>
    { outcome := .error (.fault fault)
      notes := [.opening .file, .openFailed .file false (.fault fault)], registry := r }
  | .ok (seat, r) =>
    if longestWaitMs < settings.busyTimeoutMs then
      { outcome := .ok (), crashes := true, registry := r }
    else r.settle .file settings.wal seat

/-- Opens a plain connection: no schema, no function for the text filter. -/
def openPlain (r : Registry) (name : String) (address : Option String) : Opening :=
  let r := r.close name
  match r.connect name (address.getD ":memory:") { foldsCase := false } with
  | .error fault => { outcome := .error (.fault fault), registry := r }
  | .ok (seat, r) => { outcome := .ok (), registry := r.seatNew seat }

end Registry

end JobBoard.Host
