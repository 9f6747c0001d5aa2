import JobBoard.Store.Connection

/-!
# Migration

A database is brought up to date in two steps. The version is looked at without a lock, and only an
old database goes on to the second step, which takes the write lock, looks again and runs the
scripts that are missing, all of them or none.
-/

namespace JobBoard.Store

/-- The state of a schema, read off its version. -/
inductive SchemaAge where
  | current
  | older (version : Int)
  deriving DecidableEq, Repr

/-- What a version says about a schema; a version below zero is no version. -/
def schemaAge (version : Int) : Except StoreError SchemaAge :=
  if version < 0 then .error (.fault (.outOfRange 0 version))
  else if latestVersion < version then .error (.newerSchema version latestVersion)
  else if version = latestVersion then .ok .current
  else .ok (.older version)

namespace Connection

/-- The version of the schema. -/
def version (c : Connection) : Except Refusal Int × Connection :=
  c.read (.of fun db => .ok db.version)

/-- The first step: whether there is something to do. -/
def checkAge (c : Connection) : Except StoreError SchemaAge × Connection :=
  match c.version with
  | (.error cause, c) => (.error (.refused cause), c)
  | (.ok v, c) => (schemaAge v, c)

/-- What the second step does once it holds the lock. -/
def upgradeLocked (c : Connection) : Except StoreError Unit × Connection :=
  match c.checkAge with
  | (.error e, c) => (.error e, c.abandon)
  | (.ok .current, c) => (.ok (), c.abandon)
  | (.ok (.older v), c) =>
    let ran := c.write (fun _ => false) (upgradeFrom v)
    match ran.answer with
    | .error cause => (.error (.refused cause), ran.connection.abandon)
    | .ok () =>
      match ran.connection.commit with
      | (.error cause, c) => (.error (.refused cause), c.abandon)
      | (.ok (), c) => (.ok (), c)

/-- The second step: takes the lock, looks again, and runs what is missing. -/
def upgrade (c : Connection) : Except StoreError Unit × Connection :=
  match c.begin .immediate with
  | (.error cause, c) => (.error (.refused cause), c)
  | (.ok (), c) => c.upgradeLocked

/-- Both steps. -/
def migrate (c : Connection) : Except StoreError Unit × Connection :=
  match c.checkAge with
  | (.error e, c) => (.error e, c)
  | (.ok .current, c) => (.ok (), c)
  | (.ok (.older _), c) => c.upgrade

end Connection

end JobBoard.Store
