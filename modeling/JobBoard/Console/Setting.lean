import JobBoard.Store.Migration

/-!
# Settings and facts of a connection

What can be asked about a connection by name. Some settings are the same for all connections, some
belong to the connection, and some are facts about its tables, which have to be read for that. A
name that stands for nothing has no value.
-/

namespace JobBoard.Console

open Store

/-- Where the value of a setting comes from. -/
inductive Setting where
  /-- It is the same everywhere. -/
  | fixed (value : Cell)
  /-- The connection knows it. -/
  | own (value : Connection → Option Cell)
  /-- The connection knows it once it has looked at the schema. -/
  | ofSchema (value : Connection → Option Cell)
  /-- It is read off the tables. -/
  | ofTables (value : Connection → Database → Except Refusal (Option Cell))

/-- A setting that is the same everywhere but told only after a look at the schema. -/
def Setting.afterSchema (value : Option Cell) : Setting := .ofSchema fun _ => value

/-- A switch as a number. -/
def switch (on : Bool) : Cell := .integer (if on then 1 else 0)

/-- A number that is read off the tables. -/
def Setting.tableNumber (value : Database → Int) : Setting :=
  .ofTables fun _ db => .ok (some (.integer (value db)))

/-- Whether some row of a table breaks a rule of the table. -/
def breaksRules (db : Database) (t : TableName) : Bool :=
  match db.table t with
  | some x => x.rows.any fun a => ((relation t x.relaxed).brokenRule? a).isSome
  | none => false

/-- What an inspection of all rows finds first, unless rules are suspended. -/
def inspection : Setting := .ofTables fun c db =>
  match if c.ignoresRules then none else db.newestFirst.find? (breaksRules db) with
  | some t => .ok (some (.text ("CHECK constraint failed in " ++ t.text)))
  | none => .ok (some (.text "ok"))

/-- A reference of a table to a foreign table, as a refusal. -/
def strayReference? (db : Database) (t : TableName) : Option Refusal :=
  match db.lostReference? t fun _ => true with
  | some (.referenceMismatch child parent) => some (.referenceMismatch child parent)
  | _ => none

/-- The first table with a row that refers to nothing. References have to lead to tables of the
board for that. -/
def referenceCheck : Setting := .ofTables fun _ db =>
  match db.newestFirst.findSome? (strayReference? db) with
  | some cause => .error cause
  | none => .ok ((TableName.all.find? (db.dangles true)).map fun t => .text t.text)

/-- The number of trees that a table of the board is kept in: its rows, its indexes, and one more
where rows may not agree in some columns. -/
def treesOf (db : Database) (t : TableName) : Nat :=
  match db.table t with
  | some x =>
    1 + x.indexes.length + ((relation t x.relaxed).uniques.filter (!·.isRowId)).length
  | none => 0

/-- The number of pages while rows are few: one for each tree and one for the schema, which needs
two more once it is complete. A database that was never written to has none. -/
def pageCount (db : Database) : Nat :=
  if db = {} then 0
  else
    1 + (if TableName.all.all db.has then 2 else 0) + db.foreign.length +
      (TableName.all.map (treesOf db)).foldl (· + ·) 0

/-- Settings of the way rules are kept. -/
def ruleSettings : List (String × Setting) := [
  ("defer_foreign_keys", .fixed (.integer 0)),
  ("foreign_key_check", referenceCheck),
  ("foreign_keys", .fixed (.integer 1)),
  ("ignore_check_constraints", .own fun c => some (switch c.ignoresRules)),
  ("integrity_check", inspection),
  ("quick_check", inspection),
  ("recursive_triggers", .fixed (.integer 0)),
  ("trusted_schema", .fixed (.integer 1)),
  ("writable_schema", .fixed (.integer 0))]

/-- Settings of the file and its journal. -/
def fileSettings : List (String × Setting) := [
  ("application_id", .tableNumber fun _ => 0),
  ("auto_vacuum", .afterSchema (some (.integer 0))),
  ("checkpoint_fullfsync", .fixed (.integer 0)),
  ("data_version", .own fun c => some (.integer (if c.journal == .memory then 1 else 2))),
  ("encoding", .fixed (.text "UTF-8")),
  ("freelist_count", .tableNumber fun _ => 0),
  ("fullfsync", .fixed (.integer 0)),
  ("journal_mode", .ofSchema fun c => some (.text c.journal.text)),
  ("journal_size_limit", .fixed (.integer (-1))),
  ("locking_mode", .fixed (.text "normal")),
  ("max_page_count", .afterSchema (some (.integer 4294967294))),
  ("mmap_size", .own fun c => if c.journal == .memory then none else some (.integer 0)),
  ("page_count", .tableNumber fun db => pageCount db),
  ("page_size", .fixed (.integer 4096)),
  ("schema_version", .tableNumber fun db => db.revision),
  ("secure_delete", .fixed (.integer 0)),
  ("synchronous", .afterSchema (some (.integer 2))),
  ("user_version", .tableNumber Database.version),
  ("wal_autocheckpoint", .fixed (.integer 1000)),
  ("wal_checkpoint", .afterSchema (some (.integer 0)))]

/-- Settings of the work on statements, and lists of which the first member is told. -/
def workSettings : List (String × Setting) := [
  ("analysis_limit", .fixed (.integer 0)),
  ("automatic_index", .fixed (.integer 1)),
  ("busy_timeout", .own fun c => some (.integer c.busyTimeoutMs)),
  ("cache_size", .afterSchema (some (.integer (-2000)))),
  ("cache_spill", .fixed (.integer 483)),
  ("cell_size_check", .fixed (.integer 0)),
  ("collation_list", .fixed (.integer 0)),
  ("compile_options", .fixed (.text "ATOMIC_INTRINSICS=1")),
  ("count_changes", .fixed (.integer 0)),
  ("database_list", .fixed (.integer 0)),
  ("default_cache_size", .afterSchema (some (.integer (-2000)))),
  ("empty_result_callbacks", .fixed (.integer 0)),
  ("full_column_names", .fixed (.integer 0)),
  ("hard_heap_limit", .fixed (.integer 0)),
  ("legacy_alter_table", .fixed (.integer 0)),
  ("pragma_list", .fixed (.text "analysis_limit")),
  ("query_only", .fixed (.integer 0)),
  ("read_uncommitted", .fixed (.integer 0)),
  ("reverse_unordered_selects", .fixed (.integer 0)),
  ("short_column_names", .fixed (.integer 1)),
  ("soft_heap_limit", .fixed (.integer 0)),
  ("table_list", .ofSchema fun _ => some (.text "main")),
  ("temp_store", .fixed (.integer 0)),
  ("threads", .fixed (.integer 0))]

/-- The setting of a name. -/
def setting? (name : String) : Option Setting :=
  ((ruleSettings ++ fileSettings ++ workSettings).find? (·.1 == name)).map (·.2)

/-- The value of a setting on a connection, if it has one. -/
def Setting.value (s : Setting) (c : Connection) : Except Refusal (Option Cell) × Connection :=
  match s with
  | .fixed v => (.ok (some v), c)
  | .own f => (.ok (f c), c)
  | .ofSchema f => (c.schema.map fun _ => f c, c)
  | .ofTables f => c.read (.of (f c))

end JobBoard.Console
