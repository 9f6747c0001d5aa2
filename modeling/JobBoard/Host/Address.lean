import JobBoard.Error.StoreError
import JobBoard.Host.Folders

/-!
# Addresses of databases

What the name of a database stands for: a database in memory, a private one that goes with its
connection, or a file. A name that starts with `file:` is an address, with an authority, a path in
which any byte may be written in hexadecimal, and options.
-/

namespace JobBoard.Host

/-- How a file may be used. -/
inductive Access where
  | readOnly
  | readWrite
  /-- As before, and the file is created if it is missing. -/
  | create
  /-- The file is not used at all. -/
  | memory
  deriving DecidableEq, Repr

namespace Access

/-- All ways. -/
def all : List Access := [.readOnly, .readWrite, .create, .memory]

/-- The name by which an option asks for it. -/
def text : Access → String
  | .readOnly => "ro"
  | .readWrite => "rw"
  | .create => "rwc"
  | .memory => "memory"

/-- How much it asks for: one bit each for reading, writing and creating. -/
def asks : Access → Nat
  | .readOnly => 1
  | .readWrite => 2
  | .create => 6
  | .memory => 0

/-- How much a later option may ask for. -/
def allows : Access → Nat
  | .memory => 128
  | a => a.asks

end Access

/-- What a name stands for. -/
inductive Target where
  | memory
  | temporary
  | file (path : String) (access : Access)
  deriving DecidableEq, Repr

/-- What a path stands for. -/
def Target.ofPath (path : String) (access : Access) : Target :=
  if access = .memory || path = ":memory:" then .memory
  else if path = "" then .temporary
  else .file path access

namespace Address

/-- The value of a hexadecimal digit. -/
def hexValue? (b : UInt8) : Option Nat :=
  let n := b.toNat
  if 48 ≤ n ∧ n ≤ 57 then some (n - 48)
  else if 65 ≤ n ∧ n ≤ 70 then some (n - 55)
  else if 97 ≤ n ∧ n ≤ 102 then some (n - 87)
  else none

/-- The value of two hexadecimal digits. -/
def octet? (high low : UInt8) : Option UInt8 := do
  some (UInt8.ofNat ((← hexValue? high) * 16 + (← hexValue? low)))

/-- Bytes up to a stop, with those that are written in hexadecimal put in; a zero among these cuts
off the rest. -/
def decode : List UInt8 → List UInt8
  | 37 :: a :: b :: rest =>
    match octet? a b with
    | some 0 => []
    | some c => c :: decode rest
    | none => 37 :: decode (a :: b :: rest)
  | c :: rest => c :: decode rest
  | [] => []

/-- The text of bytes. -/
def ofBytes (bs : List UInt8) : String :=
  match String.fromUTF8? ⟨bs.toArray⟩ with
  | some s => s
  | none => String.ofList (bs.map fun b => Char.ofNat b.toNat)

/-- The bytes before the first of a kind, and those behind it. -/
def cutAt (b : UInt8) (bs : List UInt8) : List UInt8 × List UInt8 :=
  (bs.takeWhile (· != b), (bs.dropWhile (· != b)).drop 1)

/-- Bytes cut at each of a kind. -/
def pieces (b : UInt8) (bs : List UInt8) : List (List UInt8) :=
  (bs.foldr
    (fun c (now, done) => if c == b then ([], now :: done) else (c :: now, done))
    (([], []) : List UInt8 × List (List UInt8))) |> fun (now, done) => now :: done

/-- The options of an address: names and values. -/
def options (bs : List UInt8) : List (String × String) :=
  ((pieces 38 bs).map fun piece =>
    let (name, value) := cutAt 61 piece
    (ofBytes (decode name), ofBytes (decode value))).filter (·.1 != "")

/-- The names of the ways to reach files. -/
def carriers : List String := ["unix", "unix-none", "unix-dotfile", "unix-excl", "memdb"]

/-- The access after one option. -/
def applyOption (access : Access) (option : String × String) : Except Refusal Access :=
  match option.1 with
  | "mode" =>
    match Access.all.find? (·.text == option.2) with
    | none => .error (.noMode "access" option.2)
    | some a => if access.allows < a.asks then .error (.modeNotAllowed option.2) else .ok a
  | "cache" =>
    if option.2 == "shared" || option.2 == "private" then .ok access
    else .error (.noMode "cache" option.2)
  | _ => .ok access

/-- The access after all options. -/
def applyOptions (options : List (String × String)) (access : Access) : Except Refusal Access :=
  match options with
  | [] => .ok access
  | o :: rest =>
    match applyOption access o with
    | .ok access => applyOptions rest access
    | .error cause => .error cause

/-- The way to reach files that the last option asks for. -/
def carrier (options : List (String × String)) : String :=
  ((options.reverse.find? (·.1 == "vfs")).map (·.2)).getD "unix"

/-- What an address stands for, behind its authority. -/
def ofRest (bs : List UInt8) : Except Refusal Target :=
  let (path, query) := cutAt 63 (cutAt 35 bs).1
  let options := options query
  match applyOptions options .create with
  | .error cause => .error cause
  | .ok access =>
    let carrier := carrier options
    if !carriers.contains carrier then .error (.noCarrier carrier)
    else .ok (.ofPath (ofBytes (decode path)) (if carrier = "memdb" then .memory else access))

/-- What an address stands for, behind its scheme. An authority has to be this machine. -/
def target (bs : List UInt8) : Except Refusal Target :=
  match bs with
  | 47 :: 47 :: rest =>
    let authority := ofBytes (rest.takeWhile (· != 47))
    if authority = "" || authority = "localhost" then ofRest (rest.dropWhile (· != 47))
    else .error (.foreignMachine authority)
  | _ => ofRest bs

end Address

/-- What the name of a database stands for. -/
def Target.ofName (name : String) : Except StoreFault Target :=
  let bytes := name.toUTF8.toList
  if holdsNul name then .error (.nulInPath (bytes.takeWhile (· != 0)).length)
  else if name.startsWith "file:" then (Address.target (bytes.drop 5)).mapError .refused
  else .ok (.ofPath name .create)

/-- The number of bytes of the path to a place. -/
def pathBytes (place : List String) : Nat :=
  place.foldl (fun n c => n + c.utf8ByteSize + 1) 0

/-- The bytes that the path of a database file has room for. -/
def databasePathRoom : Nat := 512

/-- The bytes at the end of the room that the names of the journals need. -/
def journalNameRoom : Nat := 8

/-- The place of a database file, found step by step. A double dot leads back over whatever was
before it, so the way need not exist; but nothing can be below a file. -/
def Folders.followSteps? (f : Folders) (place : List String) : List String → Option (List String)
  | [] => some place
  | c :: rest =>
    if c = "." then f.followSteps? place rest
    else if c = ".." then f.followSteps? place.dropLast rest
    else if nameLimit < c.utf8ByteSize || (f.file? place).isSome ||
        databasePathRoom < pathBytes (place ++ [c]) then none
    else f.followSteps? (place ++ [c]) rest

/-- The place of a database file, whose path has to leave room for the names of its journals. -/
def Folders.databasePlace? (f : Folders) (steps : List String) : Option (List String) :=
  (f.followSteps? [] steps).filter fun place =>
    !place.isEmpty && pathBytes place + journalNameRoom ≤ databasePathRoom

/-- Where the database file of a path is, what it holds, and the folders with it, unless it cannot
be opened. -/
def Folders.openDatabase? (f : Folders) (path : String) (access : Access) :
    Option (List String × Folders) := do
  let place ← f.databasePlace? (steps path)
  if f.isFolder place || !f.isFolder place.dropLast then none
  else
    match f.file? place with
    | some content => some (place, f.put place content.asDatabase)
    | none => if access = .create then some (place, f.put place (.database {} 0 false)) else none

end JobBoard.Host
