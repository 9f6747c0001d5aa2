import JobBoard.Proofs.Call.Entries
import JobBoard.Proofs.Names

/-!
# What resolving names adds

Outside a transaction, names that are resolved have an id already or get one, each in turn
(`NamesResolved`). If it stops at an error, that is what happened to the names before
(`resolveAll_resolves`). The dictionary has then gained the names that were missing, in the order in
which they first occur (`NamesResolved.added`), and the answer is the ids that the names have
(`NamesResolved.map_idOf?`).
-/

set_option autoImplicit false

namespace JobBoard

open Observe Store

/-- A name has an id already, or it is new and gets one. -/
inductive NameResolved (d : Dictionary) (name : String) : Database → Int → Database → Prop where
  | known {db : Database} {id : Int} (there : db.idOf? d name = some id) :
      NameResolved d name db id db
  | letIn {db : Database} {x : Table Entry} (there : db.table (.dictionary d) = some x)
      (new : ∀ e ∈ x.rows, e.name ≠ name) :
      NameResolved d name db (newEntry x name).id
        (db.withRow (.dictionary d) x (newEntry x name))

/-- The names of a list are resolved in order. -/
inductive NamesResolved (d : Dictionary) :
    List String → Database → List Int → Database → Prop where
  | nil {db : Database} : NamesResolved d [] db [] db
  | cons {name : String} {rest : List String} {id : Int} {ids : List Int}
      {db db' db'' : Database} (first : NameResolved d name db id db')
      (others : NamesResolved d rest db' ids db'') :
      NamesResolved d (name :: rest) db (id :: ids) db''

variable {d : Dictionary} {name : String} {list : List String} {i : Int} {is : List Int}
  {db db' : Database}

/-! ## Ids -/

/-- The id of a name that is at the end of a table, or before it. -/
theorem Store.Database.idOf?_withRow {x : Table Entry}
    (hx : db.table (.dictionary d) = some x) (e : Entry) (name : String) :
    (db.withRow (.dictionary d) x e).idOf? d name =
      (db.idOf? d name).or (if e.name = name then some e.id else none) := by
  rw [Database.idOf?, Database.idOf?, Database.rows_withRow hx, Database.rows_of_table hx,
    List.find?_append, List.find?_singleton]
  by_cases hname : e.name = name
  · cases x.rows.find? (·.name == name) <;> simp [hname]
  · cases x.rows.find? (·.name == name) <;> simp [hname]

/-- Ids that names have stay. -/
theorem NameResolved.keeps (h : NameResolved d name db i db') {other : String} {j : Int}
    (hj : db.idOf? d other = some j) : db'.idOf? d other = some j := by
  cases h with
  | known => exact hj
  | letIn there new => rw [Database.idOf?_withRow there, hj, Option.some_or]

/-- The answer is the id that the name has then. -/
theorem NameResolved.has (h : NameResolved d name db i db') : db'.idOf? d name = some i := by
  cases h with
  | known there => exact there
  | @letIn x there new =>
    have hnone : db.idOf? d name = none := by
      rw [Database.idOf?_eq_none_iff, Database.rows_of_table there]
      exact new
    rw [Database.idOf?_withRow there, hnone, Option.none_or]
    exact if_pos rfl

theorem NamesResolved.keeps (h : NamesResolved d list db is db') {other : String} {j : Int}
    (hj : db.idOf? d other = some j) : db'.idOf? d other = some j := by
  induction h with
  | nil => exact hj
  | cons first _ ih => exact ih (first.keeps hj)

/-- The answers are the ids that the names have in the end. -/
theorem NamesResolved.map_idOf? (h : NamesResolved d list db is db') :
    is.map some = list.map (db'.idOf? d) := by
  induction h with
  | nil => rfl
  | cons first others ih => rw [List.map_cons, List.map_cons, ih, others.keeps first.has]

/-! ## The tables -/

/-- The entries of names that are entered in a dictionary one after the other. -/
def newEntries (x : Table Entry) : List String → List Entry
  | [] => []
  | name :: rest =>
    newEntry x name :: newEntries { x with rows := x.rows ++ [newEntry x name] } rest

theorem map_name_newEntries (x : Table Entry) (list : List String) :
    (newEntries x list).map Entry.name = list := by
  induction list generalizing x with
  | nil => rfl
  | cons name rest ih => rw [newEntries, List.map_cons, ih, newEntry]

/-- The names that the dictionary did not have are entered, each once, in the order in which they
first occur, and nothing else changes. -/
theorem NamesResolved.enters (h : NamesResolved d list db is db') {x : Table Entry}
    (hx : db.table (.dictionary d) = some x) :
    db' = db.setTable (.dictionary d) (some { x with
      rows := x.rows ++ newEntries x (firstsBy id (x.rows.map Entry.name) list) }) := by
  induction h generalizing x with
  | nil =>
    rw [firstsBy, newEntries, List.append_nil]
    exact (Database.setTable_of_table hx).symm
  | @cons name rest i is db _ _ first _ ih =>
    have hcontains : (x.rows.map Entry.name).contains (id name) = true ↔
        ∃ e ∈ x.rows, e.name = name := by
      rw [List.contains_iff_mem, List.mem_map]
      rfl
    rw [firstsBy]
    cases first with
    | known there =>
      have hmem := Database.mem_rows_of_idOf? there
      rw [Database.rows_of_table hx] at hmem
      rw [if_pos (hcontains.2 ⟨_, hmem, rfl⟩)]
      exact ih hx
    | @letIn x' there new =>
      obtain rfl : x = x' := Option.some.inj (hx.symm.trans there)
      have hnew : ¬ (x.rows.map Entry.name).contains (id name) = true := by
        rw [hcontains]
        rintro ⟨e, he, heq⟩
        exact new e he heq
      -- the new name counts as seen for the rest, now that it stands in the table
      have hseen : firstsBy id ((x.rows ++ [newEntry x name]).map Entry.name) rest =
          firstsBy id (id name :: x.rows.map Entry.name) rest := by
        apply firstsBy_congr
        intro n
        rw [List.map_append, List.mem_append, List.mem_cons, or_comm, List.map_singleton,
          List.mem_singleton]
        rfl
      have hrest := ih (Database.table_setTable_self db _ _)
      simp only [hseen, Database.withRow, Database.setTable_setTable] at hrest
      rw [if_neg hnew, newEntries, hrest, List.append_assoc, List.singleton_append]

/-- The dictionary gains the names that it did not have, each once, and nothing else changes. -/
theorem NamesResolved.added (h : NamesResolved d list db is db') {x : Table Entry}
    (hx : db.table (.dictionary d) = some x) :
    ∃ added, db' = db.setTable (.dictionary d) (some { x with rows := x.rows ++ added }) ∧
      added.map Entry.name = firstsBy id (x.rows.map Entry.name) list :=
  ⟨_, h.enters hx, map_name_newEntries x _⟩

/-- Of different names those are gained that have no id. -/
theorem firstsBy_eq_missing {y : Table Entry} (hy : db.table (.dictionary d) = some y)
    (hlist : list.Nodup) :
    firstsBy id (y.rows.map Entry.name) list =
      list.filter fun name => (db.idOf? d name).isNone := by
  rw [firstsBy_eq_filter id (by rw [List.map_id]; exact hlist)]
  apply List.filter_congr
  intro name _
  rw [Bool.eq_iff_iff, Option.isNone_iff_eq_none, Database.idOf?_eq_none_iff,
    Database.rows_of_table hy]
  simp

/-! ## Calls -/

namespace Call

variable {s : Call}

theorem findId_eq (hs : s.connection.transaction = none) {found : Option Int}
    (h : (s.findId d name).1 = .ok found) : found = s.connection.committed.idOf? d name :=
  eq_of_ask_ofEntries hs h

/-- What a call for the id of a name comes to: an error with the tables as they were, or the name
was resolved. -/
def Resolves (d : Dictionary) (name : String) (s : Call) (r : Answered Call Int) : Prop :=
  ((∃ e, r.1 = .error e) ∧ r.2.connection.committed = s.connection.committed) ∨
    ∃ id, r.1 = .ok id ∧
      NameResolved d name s.connection.committed id r.2.connection.committed

/-- A look-up changes nothing, and what it finds is the id of the name. -/
theorem findId_tell_cases (d : Dictionary) (name : String)
    (hs : s.connection.transaction = none) (event : Event) :
    let r := (s.tell event).findId d name
    r.2.connection = s.connection ∧
      ∀ found, r.1 = .ok found → found = s.connection.committed.idOf? d name := by
  have htold := connection_tell event s
  refine ⟨(connection_ask (htold.symm ▸ hs) _).trans htold, ?_⟩
  intro found h
  have hfound := findId_eq (s := s.tell event) (htold.symm ▸ hs) h
  rw [htold] at hfound
  exact hfound

theorem reread_resolves (hs : s.connection.transaction = none) :
    Resolves d name s (names.reread d name s) := by
  obtain ⟨hconnection, hfound⟩ := findId_tell_cases d name hs (.retried d)
  show Resolves d name s (Stage.afterReread d ((s.tell (.retried d)).findId d name).1,
    ((s.tell (.retried d)).findId d name).2)
  cases hreply : ((s.tell (.retried d)).findId d name).1 with
  | error e => exact .inl ⟨⟨_, rfl⟩, congrArg Connection.committed hconnection⟩
  | ok found =>
    cases found with
    | none => exact .inl ⟨⟨_, rfl⟩, congrArg Connection.committed hconnection⟩
    | some id =>
      refine .inr ⟨id, rfl, ?_⟩
      rw [hconnection]
      exact .known (hfound _ hreply).symm

theorem create_resolves (d : Dictionary) (name : String) (hs : s.connection.transaction = none)
    (hfree : s.connection.commitBlocked = false) :
    Resolves d name s (names.create d name s) := by
  have hleads := leads_insertName (d := d) name s
  have hcases := insertName_cases d name hs hfree
  rw [NameStore.create, show names.insert d name s = s.insertName d name from rfl]
  rcases hr : s.insertName d name with ⟨e | id, s'⟩
  · rw [hr] at hleads hcases
    obtain ⟨-, hsame⟩ | ⟨x, -, -, hid, -⟩ := hcases
    · by_cases hunique : e.writeFailure = .uniqueViolation
      · simp only [Stage.afterInsert, if_pos hunique]
        have hreread : Resolves d name s' (names.reread d name s') := reread_resolves (hleads hs).1
        rw [Resolves, hsame] at hreread
        exact hreread
      · simp only [Stage.afterInsert, if_neg hunique]
        exact .inl ⟨⟨_, rfl⟩, hsame⟩
    · cases hid
  · rw [hr] at hcases
    obtain ⟨⟨e, he⟩, -⟩ | ⟨x, hx, hnew, hid, hcommitted⟩ := hcases
    · cases he
    · obtain rfl := Except.ok.inj hid
      refine .inr ⟨(newEntry x name).id, rfl, ?_⟩
      show NameResolved d name s.connection.committed _ s'.connection.committed
      rw [show s'.connection.committed = _ from hcommitted]
      exact .letIn hx hnew

/-- One name is resolved, or the tables are as they were. -/
theorem resolve_resolves (d : Dictionary) (name : String) (hs : s.connection.transaction = none)
    (hfree : s.connection.commitBlocked = false) : Resolves d name s (s.resolve d name) := by
  have hrun : Resolves d name s (names.findOrCreate d name (s.tell (.called .resolve))) := by
    obtain ⟨hconnection, hfound⟩ := findId_tell_cases d name hs (.called .resolve)
    rw [NameStore.findOrCreate, show names.find d name (s.tell (.called .resolve)) =
      (s.tell (.called .resolve)).findId d name from rfl]
    rcases hr : (s.tell (.called .resolve)).findId d name with ⟨e | _ | id, s'⟩ <;>
      rw [hr] at hconnection hfound
    · exact .inl ⟨⟨_, rfl⟩, congrArg Connection.committed hconnection⟩
    · have hcreate : Resolves d name s' (names.create d name s') := by
        apply create_resolves
        · rw [hconnection]
          exact hs
        · rw [hconnection]
          exact hfree
      rw [Resolves, hconnection] at hcreate
      exact hcreate
    · refine .inr ⟨id, rfl, ?_⟩
      show NameResolved d name s.connection.committed id s'.connection.committed
      rw [show s'.connection = s.connection from hconnection]
      exact .known (hfound _ rfl).symm
  have hanswer := answer_observed .resolve (names.findOrCreate d name) s
  have hstate := connection_observed .resolve (names.findOrCreate d name) s
  rw [Resolves] at hrun ⊢
  rw [← hanswer, ← hstate] at hrun
  exact hrun

/-- What a call for the ids of a list comes to: all names were resolved, or those before the one
that failed. -/
def ResolvesList (d : Dictionary) (list : List String) (s : Call) (r : Answered Call (List Int)) :
    Prop :=
  (∃ ids, r.1 = .ok ids ∧
      NamesResolved d list s.connection.committed ids r.2.connection.committed) ∨
    ∃ e n ids, r.1 = .error e ∧ n < list.length ∧
      NamesResolved d (list.take n) s.connection.committed ids r.2.connection.committed

theorem resolveEach_resolves (d : Dictionary) (list : List String)
    (hs : s.connection.transaction = none) (hfree : s.connection.commitBlocked = false) :
    ResolvesList d list s (names.resolveEach d list s) := by
  induction list generalizing s with
  | nil => exact .inl ⟨[], rfl, .nil⟩
  | cons name rest ih =>
    have hleads : Leads [.entries d] s (names.resolve d name s).2 := leads_resolve d name s
    have hfirst : Resolves d name s (names.resolve d name s) := resolve_resolves d name hs hfree
    rw [NameStore.resolveEach]
    rcases hr : names.resolve d name s with ⟨e | id, s'⟩ <;> rw [hr] at hleads hfirst
    · obtain ⟨-, hsame⟩ | ⟨id, hid, -⟩ := hfirst
      · refine .inr ⟨e, 0, [], rfl, Nat.succ_pos _, ?_⟩
        rw [hsame]
        exact .nil
      · cases hid
    · obtain ⟨⟨e, he⟩, -⟩ | ⟨id', hid, hresolved⟩ := hfirst
      · cases he
      obtain rfl := Except.ok.inj hid
      obtain ⟨ids, hids, hothers⟩ | ⟨e, n, ids, he, hn, hothers⟩ :=
        ih (hleads hs).1 (hleads.free hs hfree)
      · rcases hrest : names.resolveEach d rest s' with ⟨outcome, s''⟩
        rw [hrest] at hids hothers
        obtain rfl : outcome = .ok ids := hids
        simp only [hrest]
        exact .inl ⟨id :: ids, rfl, .cons hresolved hothers⟩
      · rcases hrest : names.resolveEach d rest s' with ⟨outcome, s''⟩
        rw [hrest] at he hothers
        obtain rfl : outcome = .error e := he
        simp only [hrest]
        exact .inr ⟨e, n + 1, id :: ids, rfl, Nat.succ_lt_succ hn, .cons hresolved hothers⟩

/-- The same holds of the call for a list, which announces itself first. -/
theorem resolveAll_resolves (d : Dictionary) (list : List String)
    (hs : s.connection.transaction = none) (hfree : s.connection.commitBlocked = false) :
    ResolvesList d list s (s.resolveAll d list) := by
  by_cases hlist : list = []
  · subst hlist
    exact .inl ⟨[], rfl, .nil⟩
  · have htold := connection_tell (.called .resolveAll) s
    have heach := resolveEach_resolves d list (htold.symm ▸ hs) (htold.symm ▸ hfree)
    rw [ResolvesList, htold] at heach
    rw [resolveAll, names.resolveAll_of_ne_nil d hlist s]
    exact heach

end Call

end JobBoard
