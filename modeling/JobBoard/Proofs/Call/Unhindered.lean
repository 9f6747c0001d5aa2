import JobBoard.Proofs.Call.Reading
import JobBoard.Proofs.Call.Resolution

/-!
# Calls that nothing keeps from their end

A token that never fires stops no statement. Where besides nobody is in the way, a write ends as the
statement does, by itself (`Connection.write_of_free`) or inside a transaction (`change_within`), a
name that has an id is found (`resolve_of_idOf?`), and what is attached to an owner is listed
(`answer_listForOwner`).
-/

set_option autoImplicit false

namespace JobBoard

open Cancel Observe Store

/-! ## Live tokens -/

namespace Cancel.Signal

variable {s : Signal}

theorem Live.ticks (h : s.Live) (m : Moment) (n : Nat) : (s.ticks m n).Live := by
  induction n generalizing s with
  | zero => exact h
  | succ n ih => exact ih (h.tick m)

theorem Live.look (h : s.Live) (l : Look) : (l.signal s).Live :=
  (h.ticks .write l.rows).ticks .look l.number

end Cancel.Signal

/-! ## Connections with nobody in the way -/

namespace Store.Connection

/-- No transaction is open, the file can be read and written, and nobody else has a lock on it that
would keep the connection from doing so. -/
structure Free (c : Connection) : Prop extends c.Commits where
  idle : c.transaction = none
  unread : c.readBlocked = false
  unlocked : c.elsewhere.writing = false

/-- The connection when all others have let go of the file. -/
def released (c : Connection) : Connection := { c with elsewhere := {} }

theorem Commits.free_released {c : Connection} (h : c.Commits) (hc : c.transaction = none) :
    c.released.Free where
  readable := h.readable
  writable := h.writable
  unblocked := by simp [released, commitBlocked]
  idle := hc
  unread := by simp [released, readBlocked]
  unlocked := rfl

theorem Free.of_settings {c c' : Connection} (hc : c.Free) (h : c'.settings = c.settings)
    (hidle : c'.transaction = none) : c'.Free where
  toCommits := hc.toCommits.of_settings h
  idle := hidle
  unread := by
    have hread : c.settings.readBlocked = false := by
      simpa [readBlocked, settings, pinned?, hc.idle] using hc.unread
    rw [← h] at hread
    simpa [readBlocked, settings, pinned?, hidle] using hread
  unlocked := by
    show c'.settings.elsewhere.writing = false
    rw [h]
    exact hc.unlocked

/-- Where nobody is in the way, a write outside a transaction ends as the statement does. -/
theorem write_of_free {α : Type} {c : Connection} (hc : c.Free) {u : Update α} {e : Effect α}
    (he : u c.committed = .ok e) (handsBack : α → Bool) :
    ((c.write handsBack u).answer, (c.write handsBack u).connection) =
      c.finishAlone handsBack e := by
  have hschema : c.schema = .ok c.committed := by
    simp [schema, hc.readable, hc.unread, view_of_alone hc.idle]
  have hobstacle : c.writeObstacle? = none := by
    simp [writeObstacle?, hc.idle, hc.unread, hc.writable, hc.unlocked, pinned?]
  simp only [write, hschema, Except.bind, he, hobstacle, hc.idle]

/-- A transaction that has seen the tables compiles its statements against what it sees. -/
theorem schema_of_pinned {c : Connection} {t : Transaction} {db : Database} {n : Nat}
    (hreadable : c.readable = true) (hc : c.transaction = some t) (ht : t.view = some (db, n)) :
    c.readBlocked = false ∧ c.schema = .ok db := by
  have hread : c.readBlocked = false := by simp [readBlocked, pinned?, hc, ht]
  exact ⟨hread, by simp [schema, hreadable, hread, view_of_pinned hc ht]⟩

/-- A transaction that turned to writing is not kept from it. -/
theorem write_of_writing {α : Type} {c : Connection} {t : Transaction} {db : Database} {n : Nat}
    (hreadable : c.readable = true) (hc : c.transaction = some t) (ht : t.view = some (db, n))
    (hwriting : t.writing = true) {u : Update α} {e : Effect α} (he : u db = .ok e)
    (handsBack : α → Bool) :
    c.write handsBack u =
      { answer := e.answer, connection := c.finishWithin t e
        writes := e.writes, work := e.work } := by
  have hobstacle : c.writeObstacle? = none := by simp [writeObstacle?, hc, hwriting]
  simp only [write, (schema_of_pinned hreadable hc ht).2, Except.bind, he, hobstacle, hc]

/-- A transaction on a file that cannot be written does not turn to writing. -/
theorem write_of_readOnly {α : Type} {c : Connection} {t : Transaction} {db : Database} {n : Nat}
    (hreadable : c.readable = true) (hc : c.transaction = some t) (ht : t.view = some (db, n))
    (hreading : t.writing = false) (hreadOnly : c.readOnly = true) {u : Update α} {e : Effect α}
    (he : u db = .ok e) (handsBack : α → Bool) :
    c.write handsBack u =
      { answer := .error .readOnly, connection := c, work := deniedWork .readOnly } := by
  obtain ⟨hread, hschema⟩ := schema_of_pinned hreadable hc ht
  have hobstacle : c.writeObstacle? = some .readOnly := by
    simp [writeObstacle?, hc, hreading, hread, hreadOnly]
  simp only [write, hschema, Except.bind, he, hobstacle]

theorem commit_of_writing {c : Connection} {t : Transaction} {db : Database} {n : Nat}
    (hc : c.transaction = some t) (ht : t.view = some (db, n)) (hwriting : t.writing = true)
    (howes : db.owes = false) (hfree : c.commitBlocked = false) : c.commit.1 = .ok () := by
  simp [commit, hc, ht, hwriting, howes, hfree]

end Store.Connection

namespace Store.Database

/-- The tables are as the schema makes them, and edges are within their rules, as far as rules are
judged. -/
structure Regular (db : Database) (ignoreRules : Bool) : Prop where
  plain : ∀ t, ∃ x, db.table t = some x ∧ x.Plain
  edgesPositive : ignoreRules = false → ∀ k, ∀ e ∈ db.rows (.edges k), 0 < e.owner ∧ 0 < e.entry

theorem Steps.regular {ignoreRules : Bool} {areas : List Area} {db db' : Database}
    (h : Steps ignoreRules areas db db') (hdb : db.Consistent) : db'.Regular ignoreRules where
  plain t := h.plain t (hdb.tables t)
  edgesPositive := by
    rintro rfl
    exact (h.consistent hdb).edgesPositive

/-- The entries at the far ends of an owner's edges, by increasing name. -/
def attached (db : Database) (k : EdgeKind) (owner : Int) : List Entry :=
  (((db.rows (.edges k)).filter fun e => e.owner == owner).flatMap fun e =>
    (db.rows (.dictionary k.dictionary)).filter fun l => l.id == e.entry).mergeSort
      fun a b => decide (a.name ≤ b.name)

end Store.Database

namespace Call

variable {s : Call} {d : Dictionary} {k : EdgeKind} {owner : Int} {t : Transaction} {db : Database}

theorem live_check (h : s.signal.Live) : s.check.2.signal.Live := by
  rw [signal_check]
  exact h.tick .check

/-- A live token does not stop a write. -/
theorem change_of_live {α : Type} (hlive : s.signal.Live) (p : Prepared) (handsBack : α → Bool)
    (u : Update α) :
    (s.change p handsBack u).1 = (s.connection.write handsBack u).answer.mapError .refused ∧
      (s.change p handsBack u).2.connection = (s.connection.write handsBack u).connection ∧
      (s.change p handsBack u).2.signal.Live := by
  have hchecked := hlive.tick .check
  rcases change_of_checked p handsBack u (check_of_live hlive) with
    ⟨l, -, reason, -, hreason, -⟩ | ⟨hanswer, hconnection, hsignal, -⟩
  · rw [show (l.signal (s.signal.tick .check)).reason = none from hchecked.look l []] at hreason
    exact nomatch hreason
  · refine ⟨hanswer, hconnection, ?_⟩
    rw [hsignal]
    exact (hchecked.ticks .look _).ticks .write _

/-! ## Names that have an id -/

/-- A look-up tells the id that the connection sees. -/
theorem answer_findId (hs : s.Unhindered) {x : Table Entry}
    (hx : s.connection.view.table (.dictionary d) = some x) (name : String) :
    (s.findId d name).1 = .ok (s.connection.view.idOf? d name) := by
  refine answer_ask hs.live hs.readable hs.unlocked (q := idOfName d name) ?_
    (run_ofEntries_of_table hx)
  show 1 ≤ Refusal.parameterLimit
  decide

/-- A name that has an id is found at once. -/
theorem resolve_of_idOf? (hs : s.Unhindered) {x : Table Entry}
    (hx : s.connection.view.table (.dictionary d) = some x) {name : String} {id : Int}
    (hid : s.connection.view.idOf? d name = some id) :
    (s.resolve d name).1 = .ok id ∧ Reads s (s.resolve d name).2 := by
  have htold := reads_tell (.called .resolve) s
  have hfind : ((s.tell (.called .resolve)).findId d name).1 = .ok (some id) := by
    rw [← hid, ← htold.view]
    exact answer_findId (htold.unhindered hs) (htold.view ▸ hx) name
  have hreads : Reads s ((s.tell (.called .resolve)).findId d name).2 :=
    htold.trans (reads_ask _ _)
  have heq : s.resolve d name = (.ok id, ((s.tell (.called .resolve)).findId d name).2) := by
    rw [resolve, NameStore.resolve, observed, NameStore.findOrCreate,
      show names.find d name (names.tell (.called .resolve) s) =
        (s.tell (.called .resolve)).findId d name from rfl]
    generalize (s.tell (.called .resolve)).findId d name = r at hfind
    rcases r with ⟨outcome, s'⟩
    obtain rfl : outcome = .ok (some id) := hfind
    rfl
  rw [heq]
  exact ⟨rfl, hreads⟩

/-! ## Writes inside a transaction -/

/-- Where nothing is in the way, a statement inside a transaction ends as it would by itself, and
the transaction sees the tables that it leaves. -/
theorem change_within {α : Type} (hs : s.Within t db) (hwriting : t.writing = true)
    (hreadable : s.connection.readable = true) (hlive : s.signal.Live) {u : Update α}
    {e : Effect α} (he : u db = .ok e) (hgoes : e.endsTransaction = false) (p : Prepared)
    (handsBack : α → Bool) :
    let r := s.change p handsBack u
    r.1 = e.answer.mapError .refused ∧ r.2.signal.Live ∧ s.SameOutside r.2 ∧
      ∃ t', r.2.Within t' e.tables ∧ t'.writing = true := by
  intro r
  obtain ⟨htransaction, n, hview⟩ := hs
  obtain ⟨hanswer, hconnection, hlive'⟩ := change_of_live hlive p handsBack u
  rw [Connection.write_of_writing hreadable htransaction hview hwriting he handsBack]
    at hanswer hconnection
  refine ⟨hanswer, hlive', ?_, ?_⟩
  · exact (congrArg Connection.abandon hconnection).trans (Connection.abandon_finishWithin t e _)
  · rw [Connection.finishWithin, if_neg (by simp [hgoes])] at hconnection
    exact ⟨_, ⟨congrArg Connection.transaction hconnection, s.connection.commits, rfl⟩, rfl⟩

/-! ## What is attached -/

/-- The entries at the far ends of an owner's edges are listed by their names. -/
theorem answer_listForOwner (owner : Int) (hs : s.Unhindered) {x : Table Edge} {y : Table Entry}
    (hx : s.connection.view.table (.edges k) = some x)
    (hy : s.connection.view.table (.dictionary k.dictionary) = some y) :
    (s.listForOwner k owner).1 = .ok (s.connection.view.attached k owner) := by
  have htold := connection_tell (.called .listAssociations) s
  have hready := (reads_tell (.called .listAssociations) s).unhindered hs
  rw [listForOwner, answer_observed, during_eq_ok_iff]
  refine answer_ask hready.live hready.readable hready.unlocked (Nat.zero_le _) ?_
  rw [htold]
  show ((joinedEntries k owner s.connection.view).map _).map _ = _
  rw [joinedEntries, (Database.occupant_eq_own_iff _ (.edges k) x).2 hx,
    (Database.occupant_eq_own_iff _ (.dictionary k.dictionary) y).2 hy, Database.attached,
    Database.rows_of_table hx, Database.rows_of_table hy]
  rfl

theorem exists_listForOwner (owner : Int) (hs : s.Unhindered)
    (hidle : s.connection.transaction = none) {x : Table Edge} {y : Table Entry}
    (hx : s.connection.committed.table (.edges k) = some x)
    (hy : s.connection.committed.table (.dictionary k.dictionary) = some y) :
    ∃ es, (s.listForOwner k owner).1 = .ok es ∧
      ∀ e ∈ y.rows, ⟨owner, e.id⟩ ∈ x.rows → e ∈ es := by
  have hview := Connection.view_of_alone hidle
  refine ⟨_, answer_listForOwner owner hs (hview.symm ▸ hx) (hview.symm ▸ hy), ?_⟩
  intro e he hedge
  rw [hview, Database.attached, Database.rows_of_table hx, Database.rows_of_table hy,
    List.mem_mergeSort, List.mem_flatMap]
  exact ⟨_, List.mem_filter.2 ⟨hedge, beq_self_eq_true owner⟩,
    List.mem_filter.2 ⟨he, beq_self_eq_true e.id⟩⟩

end Call

end JobBoard
