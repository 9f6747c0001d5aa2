import JobBoard.Call.Basic

/-!
# Finding or creating names

A name is looked up, created if it is missing, and looked up once more if someone else created it in
between. The protocol asks nothing of the store but two calls, and the store rejects a second row of
one name, so callers that race for a name end with the same id.
-/

namespace JobBoard

open Observe

/-- A store of names: the two calls that the protocol makes, and an observer. -/
structure NameStore (σ : Type) where
  find : Dictionary → String → σ → Stored σ (Option Int)
  insert : Dictionary → String → σ → Stored σ Int
  tell : Event → σ → σ

/-- How far the protocol has come. -/
inductive Stage where
  | find
  | insert
  | reread
  | finished (outcome : Except BoardError Int)

namespace Stage

/-- The stage after the first look-up. -/
def afterFind (d : Dictionary) : Except StoreError (Option Int) → Stage
  | .ok (some id) => .finished (.ok id)
  | .ok none => .insert
  | .error e => .finished (.error (.internal (Activity.find d).text (some e)))

/-- The stage after the attempt to create the name. Only a clash of names is worth another look. -/
def afterInsert (d : Dictionary) : Except StoreError Int → Stage
  | .ok id => .finished (.ok id)
  | .error e =>
    if e.writeFailure = .uniqueViolation then .reread
    else .finished (.error (.ofFailedWrite (Activity.create d).text e))

/-- The outcome of the second look-up. -/
def afterReread (d : Dictionary) : Except StoreError (Option Int) → Except BoardError Int
  | .ok (some id) => .ok id
  | .ok none => .error (.internal (Activity.vanished d).text none)
  | .error e => .error (.internal (Activity.reread d).text (some e))

end Stage

namespace NameStore

variable {σ : Type}

/-- The last look-up, once a clash was met. -/
def reread (S : NameStore σ) (d : Dictionary) (name : String) (s : σ) : Answered σ Int :=
  let (reply, s) := S.find d name (S.tell (.retried d) s)
  (Stage.afterReread d reply, s)

/-- The attempt to create a name that was not found. -/
def create (S : NameStore σ) (d : Dictionary) (name : String) (s : σ) : Answered σ Int :=
  let (reply, s) := S.insert d name s
  match Stage.afterInsert d reply with
  | .finished outcome => (outcome, s)
  | _ => S.reread d name s

/-- The whole protocol for one name. -/
def findOrCreate (S : NameStore σ) (d : Dictionary) (name : String) (s : σ) : Answered σ Int :=
  let (reply, s) := S.find d name s
  match Stage.afterFind d reply with
  | .finished outcome => (outcome, s)
  | _ => S.create d name s

/-- The id of a name, which is created if need be. -/
def resolve (S : NameStore σ) (d : Dictionary) (name : String) : σ → Answered σ Int :=
  observed S.tell .resolve (S.findOrCreate d name)

/-- The ids of names one after the other, up to the first failure. -/
def resolveEach (S : NameStore σ) (d : Dictionary) : List String → σ → Answered σ (List Int)
  | [], s => (.ok [], s)
  | name :: rest, s =>
    match S.resolve d name s with
    | (.error e, s) => (.error e, s)
    | (.ok id, s) =>
      match S.resolveEach d rest s with
      | (.error e, s) => (.error e, s)
      | (.ok ids, s) => (.ok (id :: ids), s)

/-- The ids of a list of names, in order. Nothing happens for an empty list. -/
def resolveAll (S : NameStore σ) (d : Dictionary) (names : List String) (s : σ) :
    Answered σ (List Int) :=
  match names with
  | [] => (.ok [], s)
  | _ => S.resolveEach d names (S.tell (.called .resolveAll) s)

end NameStore

end JobBoard
