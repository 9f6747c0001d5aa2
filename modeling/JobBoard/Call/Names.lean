import JobBoard.Call.Resolver
import JobBoard.Names

/-!
# Dictionary calls

The reads of a dictionary and the store of names that resolution runs on.
-/

namespace JobBoard

open Observe Store

/-- A query on the entries of a dictionary. -/
def ofEntries {α : Type} (d : Dictionary) (parameters : Nat) (f : List Entry → α) : Query α where
  parameters
  run := fun db => (db.use (.dictionary d) "name").map fun x => .ok (f x.rows)

/-- The id of a name in the tables. -/
def idOfName (d : Dictionary) (name : String) : Query (Option Int) :=
  ofEntries d 1 fun entries => (entries.find? (·.name == name)).map Entry.id

/-- The entry of an id. -/
def entryOfId (d : Dictionary) (id : Int) : Query (Option Entry) :=
  ofEntries d 1 fun entries => entries.find? (·.id == id)

/-- The entries whose id is listed, by increasing id. -/
def entriesOfIds (d : Dictionary) (ids : List Int) : Query (List Entry) :=
  ofEntries d ids.length fun entries =>
    (entries.filter fun e => ids.contains e.id).mergeSort fun a b => a.id ≤ b.id

/-- All entries, by increasing name. -/
def allEntries (d : Dictionary) : Query (List Entry) :=
  ofEntries d 0 fun entries => entries.mergeSort fun a b => decide (a.name ≤ b.name)

/-- The entries whose name is listed. -/
def entriesOfNames (d : Dictionary) (names : List String) : Query (List Entry) :=
  ofEntries d names.length fun entries => entries.filter fun e => names.contains e.name

namespace Call

/-- The guarded look-up of a name. -/
def findId (d : Dictionary) (name : String) (s : Call) : Stored Call (Option Int) :=
  s.ask (idOfName d name)

/-- The guarded insertion of a name. The id comes back as a row. -/
def insertName (d : Dictionary) (name : String) (s : Call) : Stored Call Int :=
  match s.change (.entry d) Option.isSome (insertEntry s.connection.ignoresRules d name) with
  | (.ok (some id), s) => (.ok id, s)
  | (.ok none, s) => (.error (.fault .noRow), s)
  | (.error e, s) => (.error e, s)

/-- The store of names that a call works on. -/
def names : NameStore Call := ⟨findId, insertName, tell⟩

/-- The id of a name, created if need be. -/
def resolve (d : Dictionary) (name : String) : Call → Answered Call Int := names.resolve d name

/-- The ids of names, created if need be. -/
def resolveAll (d : Dictionary) (list : List String) : Call → Answered Call (List Int) :=
  names.resolveAll d list

/-- The entry of an id, which has to exist. -/
def getById (d : Dictionary) (id : Int) : Call → Answered Call Entry :=
  observed tell .lookupRead fun s =>
    match during (.getOne d) (s.ask (entryOfId d id)) with
    | (.error e, s) => (.error e, s)
    | (.ok (some e), s) => (.ok e, s)
    | (.ok none, s) => (.error (.notFound (d.text ++ " with id=" ++ toString id)), s)

/-- The entries of a list of ids, by increasing id. Ids without an entry are passed over. -/
def getByIds (d : Dictionary) (ids : List Int) (s : Call) : Answered Call (List Entry) :=
  match ids with
  | [] => (.ok [], s)
  | _ => observed tell .lookupRead (fun s => during (.getMany d) (s.ask (entriesOfIds d ids))) s

/-- All entries, by increasing name. -/
def listAll (d : Dictionary) : Call → Answered Call (List Entry) :=
  observed tell .lookupRead fun s => during (.listAll d) (s.ask (allEntries d))

/-- The ids of those names that exist, in the order in which the names first occur. All names go to
the store in one statement. -/
def findIdsByNames (d : Dictionary) (list : List String) (s : Call) : Answered Call (List Int) :=
  match list with
  | [] => (.ok [], s)
  | _ =>
    let unique := firstsBy id [] list
    observed tell .lookupRead
      (fun s =>
        match during (.findNames d) (s.ask (entriesOfNames d unique)) with
        | (.error e, s) => (.error e, s)
        | (.ok found, s) =>
          (.ok (unique.filterMap fun n => (found.find? (·.name == n)).map Entry.id), s))
      s

end Call

end JobBoard
