import JobBoard.Proofs.Error.Classification
import JobBoard.Store.Connection

/-!
# Statements and transactions on a connection

What each statement can leave behind. Outside a transaction a write is published whole or leaves the
connection as it was (`write_alone_cases`); inside one it changes what the transaction sees and
nothing else (`write_within_cases`). Beginning and ending a transaction never touch the tables
except that a commit publishes what the transaction saw.
-/

set_option autoImplicit false

namespace JobBoard.Store.Connection

variable {α : Type}

/-! ## Settings -/

/-- A connection without its tables and its transaction: what no statement changes. -/
def settings (c : Connection) : Connection :=
  { c with committed := {}, commits := 0, transaction := none }

theorem ignoresRules_of_settings {c c' : Connection} (h : c'.settings = c.settings) :
    c'.ignoresRules = c.ignoresRules := by
  show c'.settings.ignoresRules = c.settings.ignoresRules
  rw [h]

theorem readable_of_settings {c c' : Connection} (h : c'.settings = c.settings) :
    c'.readable = c.readable := by
  show c'.settings.readable = c.settings.readable
  rw [h]

theorem foldsCase_of_settings {c c' : Connection} (h : c'.settings = c.settings) :
    c'.foldsCase = c.foldsCase := by
  show c'.settings.foldsCase = c.settings.foldsCase
  rw [h]

theorem readOnly_of_settings {c c' : Connection} (h : c'.settings = c.settings) :
    c'.readOnly = c.readOnly := by
  show c'.settings.readOnly = c.settings.readOnly
  rw [h]

theorem commitBlocked_of_settings {c c' : Connection} (h : c'.settings = c.settings) :
    c'.commitBlocked = c.commitBlocked := by
  show c'.settings.commitBlocked = c.settings.commitBlocked
  rw [h]

/-- The file can be read and written, and nobody else keeps the connection from committing. -/
structure Commits (c : Connection) : Prop where
  readable : c.readable = true
  writable : c.readOnly = false
  unblocked : c.commitBlocked = false

theorem Commits.of_settings {c c' : Connection} (hc : c.Commits) (h : c'.settings = c.settings) :
    c'.Commits where
  readable := (readable_of_settings h).trans hc.readable
  writable := (readOnly_of_settings h).trans hc.writable
  unblocked := (commitBlocked_of_settings h).trans hc.unblocked

@[simp] theorem settings_abandon (c : Connection) : c.abandon.settings = c.settings := rfl

/-- Where no transaction is open there is nothing to give up. -/
theorem abandon_of_alone {c : Connection} (hc : c.transaction = none) : c.abandon = c := by
  rw [abandon, ← hc]

/-! ## Outside a transaction -/

/-- Refusals that come from the connection and not from the statement: another connection is in the
way, or the file cannot be read or written, or a deferred reference is broken at the commit. -/
inductive Hindrance : Refusal → Prop where
  | notADatabase : Hindrance .notADatabase
  | locked : Hindrance .locked
  | readOnly : Hindrance .readOnly
  | danglingReference : Hindrance .danglingReference

theorem Hindrance.not_isDuplicate {cause : Refusal} (h : Hindrance cause) :
    cause.isDuplicate = false := by
  cases h <;> rfl

theorem schema_cases (c : Connection) :
    (∃ cause, c.schema = .error cause ∧ Hindrance cause) ∨
      ∃ db, c.schema = .ok db ∧ (c.readBlocked = false → db = c.view) := by
  unfold schema
  split
  · exact .inl ⟨_, rfl, .notADatabase⟩
  · split
    · rename_i hblocked
      cases hknown : c.known with
      | none => exact .inl ⟨_, rfl, .locked⟩
      | some db => exact .inr ⟨db, rfl, by simp [hblocked]⟩
    · exact .inr ⟨c.view, rfl, fun _ => rfl⟩

theorem view_of_within {c : Connection} {t : Transaction} (hc : c.transaction = some t) :
    c.view = (t.view.getD (c.committed, c.commits)).1 := by
  cases ht : t.view <;> simp [view, pinned?, hc, ht]

theorem view_of_alone {c : Connection} (hc : c.transaction = none) : c.view = c.committed := by
  simp [view, pinned?, hc]

theorem view_of_pinned {c : Connection} {t : Transaction} {db : Database} {n : Nat}
    (hc : c.transaction = some t) (ht : t.view = some (db, n)) : c.view = db := by
  simp [view, pinned?, hc, ht]

theorem pin_of_alone {c : Connection} (hc : c.transaction = none) : c.pin = c := by
  simp [pin, hc]

theorem writeObstacle?_cases (c : Connection) :
    (∃ cause, c.writeObstacle? = some cause ∧ Hindrance cause) ∨
      (c.writeObstacle? = none ∧ (c.transaction = none → c.readBlocked = false)) := by
  unfold writeObstacle?
  split
  · rename_i hwriting
    exact .inr ⟨rfl, fun hc => by simp [hc] at hwriting⟩
  · split
    · exact .inl ⟨_, rfl, .locked⟩
    · rename_i hblocked
      split
      · exact .inl ⟨_, rfl, .readOnly⟩
      · split
        · exact .inl ⟨_, rfl, .locked⟩
        · split
          · split
            · exact .inr ⟨rfl, fun _ => by simpa using hblocked⟩
            · exact .inl ⟨_, rfl, .locked⟩
          · exact .inr ⟨rfl, fun _ => by simpa using hblocked⟩

/-- A file that can only be read keeps a connection from turning to writing. -/
theorem writable_of_writeObstacle? {c : Connection} {t : Transaction}
    (hc : c.transaction = some t) (h : c.writeObstacle? = none) :
    t.writing = true ∨ c.readOnly = false := by
  unfold writeObstacle? at h
  rw [hc] at h
  split at h
  · rename_i hwriting
    exact .inl (by simpa using hwriting)
  · split at h
    · exact nomatch h
    · split at h
      · exact nomatch h
      · rename_i hwritable
        exact .inr (by simpa using hwritable)

/-- A read leaves the connection as it was, or pins what the open transaction sees. -/
theorem read_cases (c : Connection) (q : Query α) : (c.read q).2 = c ∨ (c.read q).2 = c.pin := by
  unfold read
  split
  · exact .inl rfl
  · split
    · exact .inl rfl
    · split
      · exact .inl rfl
      · split
        · exact .inl rfl
        · exact .inr rfl

/-- A read outside a transaction leaves the connection as it was. -/
theorem read_alone {c : Connection} (hc : c.transaction = none) (q : Query α) :
    (c.read q).2 = c := by
  rcases c.read_cases q with h | h
  · exact h
  · exact h.trans (pin_of_alone hc)

@[simp] theorem settings_pin (c : Connection) : c.pin.settings = c.settings := by
  unfold pin
  split <;> rfl

@[simp] theorem committed_pin (c : Connection) : c.pin.committed = c.committed := by
  unfold pin
  split <;> rfl

/-- A look at the tables does not change what the connection sees. -/
@[simp] theorem view_pin (c : Connection) : c.pin.view = c.view := by
  cases hc : c.transaction with
  | none => rw [pin_of_alone hc]
  | some t =>
    have hpinned : c.pin.transaction =
        some { t with view := some (t.view.getD (c.committed, c.commits)) } := by simp [pin, hc]
    rw [view_of_within hc, view_of_pinned hpinned rfl]
    cases t.view <;> rfl

theorem readBlocked_pin {c : Connection} (h : c.readBlocked = false) :
    c.pin.readBlocked = false := by
  cases hc : c.transaction with
  | none => rw [pin_of_alone hc, h]
  | some t => simp [pin, hc, readBlocked, pinned?]

@[simp] theorem pin_pin (c : Connection) : c.pin.pin = c.pin := by
  cases hc : c.transaction with
  | none => rw [pin_of_alone hc, pin_of_alone hc]
  | some t => simp [pin, hc]

/-- An answer is read off the tables that the connection sees. -/
theorem run_of_read {c : Connection} {q : Query α} {a : α} (h : (c.read q).1 = .ok a) :
    q.run c.view = .ok (.ok a) := by
  unfold read at h
  split at h
  · simp at h
  · rcases c.schema_cases with ⟨cause, hschema, -⟩ | ⟨db, hschema, hdb⟩
    · simp [hschema] at h
    · simp only [hschema] at h
      cases hrun : q.run db with
      | error cause => simp [hrun] at h
      | ok answer =>
        simp only [hrun] at h
        split at h
        · simp at h
        · rename_i hblocked
          rw [← hdb (by simpa using hblocked), hrun]
          exact congrArg Except.ok h

/-- Where nobody keeps the connection from reading, the answer is that of the query. -/
theorem read_of_free {c : Connection} {q : Query α} {answer : Except Refusal α}
    (hreadable : c.readable = true) (hfree : c.readBlocked = false)
    (hparameters : q.parameters ≤ Refusal.parameterLimit) (h : q.run c.view = .ok answer) :
    (c.read q).1 = answer := by
  have hschema : c.schema = .ok c.view := by simp [schema, hreadable, hfree]
  unfold read
  rw [if_neg (by omega), hschema]
  simp only [h, hfree]
  rfl

/-- Where the refusal of a write comes from: the connection, the compilation, or the run. -/
def RefusedBy (c : Connection) (u : Update α) (cause : Refusal) : Prop :=
  Hindrance cause ∨ (∃ db, u db = .error cause) ∨
    ∃ e, u c.view = .ok e ∧ e.answer = .error cause

/-- The end of a write outside a transaction. Nothing changes if it is refused; nothing changes
either, although there is an answer, if the answer is a row and the commit is refused after it; and
otherwise the new tables are published. -/
theorem finishAlone_cases (handsBack : α → Bool) (e : Effect α) (c : Connection) :
    ((c.finishAlone handsBack e).2 = c ∧
        ∃ cause, (c.finishAlone handsBack e).1 = .error cause ∧
          (Hindrance cause ∨ e.answer = .error cause)) ∨
      (c.commitBlocked = true ∧ ∃ a, e.answer = .ok a ∧ handsBack a = true ∧
        c.finishAlone handsBack e = (.ok a, c)) ∨
      (c.commitBlocked = false ∧ e.tables.owes = false ∧ ∃ a, e.answer = .ok a ∧
        c.finishAlone handsBack e = (.ok a, c.publish e.tables e.touches)) := by
  unfold finishAlone
  cases he : e.answer with
  | error cause => exact .inl ⟨rfl, cause, rfl, .inr rfl⟩
  | ok a =>
    simp only
    split
    · exact .inl ⟨rfl, _, rfl, .inl .danglingReference⟩
    -- the commit is refused: a row that was handed back before it still counts as the answer
    · rename_i howes
      split
      · rename_i hblocked
        cases hback : handsBack a with
        | true => exact .inr (.inl ⟨hblocked, a, rfl, hback, by simp⟩)
        | false => exact .inl ⟨rfl, .locked, by simp, .inl .locked⟩
      · rename_i hblocked
        exact .inr (.inr ⟨by simpa using hblocked, by simpa using howes, a, rfl, rfl⟩)

/-- A write outside a transaction: refused, or answered but lost at the commit, or published. -/
theorem write_alone_cases {c : Connection} (hc : c.transaction = none) (handsBack : α → Bool)
    (u : Update α) :
    ((c.write handsBack u).connection = c ∧
        ∃ cause, (c.write handsBack u).answer = .error cause ∧ c.RefusedBy u cause) ∨
      (c.commitBlocked = true ∧ (c.write handsBack u).connection = c ∧
        ∃ e a, u c.committed = .ok e ∧ e.answer = .ok a ∧ handsBack a = true ∧
          (c.write handsBack u).answer = .ok a) ∨
      (c.commitBlocked = false ∧ ∃ e a, u c.committed = .ok e ∧ e.answer = .ok a ∧
        e.tables.owes = false ∧ c.write handsBack u =
          { answer := .ok a, connection := c.publish e.tables e.touches
            writes := e.writes, work := e.work }) := by
  have hview := view_of_alone hc
  unfold write
  rcases c.schema_cases with ⟨cause, hschema, hcause⟩ | ⟨db, hschema, hdb⟩
  · simp only [hschema, Except.bind]
    exact .inl ⟨trivial, cause, rfl, .inl hcause⟩
  cases hu : u db with
  | error cause =>
    simp only [hschema, Except.bind, hu]
    exact .inl ⟨trivial, cause, rfl, .inr (.inl ⟨db, hu⟩)⟩
  | ok e =>
    rcases c.writeObstacle?_cases with ⟨cause, hobstacle, hcause⟩ | ⟨hobstacle, hfree⟩
    · simp only [hschema, Except.bind, hu, hobstacle]
      exact .inl ⟨trivial, cause, rfl, .inl hcause⟩
    -- a write is let through only where reading is free, so it ran on the tables that are seen
    · obtain rfl := hdb (hfree hc)
      simp only [hschema, Except.bind, hu, hobstacle, hc]
      rcases c.finishAlone_cases handsBack e with
        ⟨hsame, cause, hanswer, hcause⟩ | ⟨hblocked, a, ha, hback, heq⟩ |
          ⟨hblocked, howes, a, ha, heq⟩
      · refine .inl ⟨hsame, cause, hanswer, ?_⟩
        rcases hcause with hcause | hcause
        · exact .inl hcause
        · exact .inr (.inr ⟨e, hu, hcause⟩)
      · rw [heq]
        exact .inr (.inl ⟨hblocked, rfl, e, a, hview ▸ hu, ha, hback, rfl⟩)
      · rw [heq]
        exact .inr (.inr ⟨hblocked, e, a, hview ▸ hu, ha, howes, rfl⟩)

/-! ## Inside a transaction -/

/-- A write inside a transaction that has seen the tables: refused before it ran, or it changes what
the transaction sees, or it ends the transaction. -/
theorem write_within_cases {c : Connection} {t : Transaction} {db : Database} {n : Nat}
    (hc : c.transaction = some t) (ht : t.view = some (db, n)) (handsBack : α → Bool)
    (u : Update α) :
    ((c.write handsBack u).connection = c ∧
        ∃ cause, (c.write handsBack u).answer = .error cause ∧ c.RefusedBy u cause ∧
          (cause.isDuplicate = true → ∃ db, u db = .error cause)) ∨
      ∃ e, u db = .ok e ∧ (c.write handsBack u).answer = e.answer ∧
        (c.write handsBack u).connection = c.finishWithin t e ∧
        (t.writing = true ∨ c.readOnly = false) := by
  have hview := view_of_pinned hc ht
  have hread : c.readBlocked = false := by simp [readBlocked, pinned?, hc, ht]
  unfold write
  rcases c.schema_cases with ⟨cause, hschema, hcause⟩ | ⟨db', hschema, hdb⟩
  · simp only [hschema, Except.bind]
    exact .inl ⟨trivial, cause, rfl, .inl hcause, by simp [hcause.not_isDuplicate]⟩
  obtain rfl : db' = db := (hdb hread).trans hview
  cases hu : u db' with
  | error cause =>
    simp only [hschema, Except.bind, hu]
    exact .inl ⟨trivial, cause, rfl, .inr (.inl ⟨db', hu⟩), fun _ => ⟨db', hu⟩⟩
  | ok e =>
    rcases c.writeObstacle?_cases with ⟨cause, hobstacle, hcause⟩ | ⟨hobstacle, -⟩
    · simp only [hschema, Except.bind, hu, hobstacle]
      exact .inl ⟨trivial, cause, rfl, .inl hcause, by simp [hcause.not_isDuplicate]⟩
    · have hwritable := writable_of_writeObstacle? hc hobstacle
      simp only [hschema, Except.bind, hu, hobstacle, hc]
      exact .inr ⟨e, rfl, rfl, rfl, hwritable⟩

/-- An effect inside a transaction leaves the committed tables alone. -/
theorem abandon_finishWithin (t : Transaction) (e : Effect α) (c : Connection) :
    (c.finishWithin t e).abandon = c.abandon := by
  unfold finishWithin
  split <;> rfl

theorem autocommit_finishWithin (t : Transaction) (e : Effect α) (c : Connection) :
    (c.finishWithin t e).autocommit = e.endsTransaction := by
  unfold finishWithin
  cases e.endsTransaction <;> rfl

/-- So does a write inside a transaction, whatever comes of it. -/
theorem abandon_write {c : Connection} {t : Transaction} (hc : c.transaction = some t)
    (handsBack : α → Bool) (u : Update α) :
    (c.write handsBack u).connection.abandon = c.abandon := by
  unfold write
  split
  · rfl
  · rename_i e he
    split
    · rfl
    · simp only [hc]
      exact abandon_finishWithin t e c

/-! ## Beginning and ending a transaction -/

/-- The connection with a transaction begun for writing, which only reads where the file cannot be
written. -/
def locked (c : Connection) : Connection :=
  { c with transaction := some { view := some (c.committed, c.commits), writing := !c.readOnly } }

/-- A transaction can be begun where nobody else writes or keeps new readers out. -/
theorem begin_of_unlocked {c : Connection} (hidle : c.transaction = none)
    (hreadable : c.readable = true) (hunread : c.readBlocked = false)
    (hunlocked : c.elsewhere.writing = false) : c.begin .immediate = (.ok (), c.locked) := by
  unfold begin
  cases hreadOnly : c.readOnly with
  | true => simp [hreadable, beginReading, hunread, hidle, pin, locked, hreadOnly]
  | false =>
    have hobstacle : c.writeObstacle? = none := by
      simp [writeObstacle?, hidle, hunread, hreadOnly, hunlocked, pinned?]
    simp [hreadable, hobstacle, beginWriting, hidle, autocommit, pin, locked, hreadOnly]

/-- A transaction begun for writing where none was open sees the committed tables. It can write from
the start only if the file can be written. -/
theorem begin_alone_cases {c : Connection} (hc : c.transaction = none) :
    (∃ cause, c.begin .immediate = (.error cause, c)) ∨
      (c.readable = true ∧ c.begin .immediate = (.ok (), c.locked)) := by
  unfold begin
  simp only
  split
  · exact .inl ⟨_, rfl⟩
  · rename_i hreadable
    rw [Bool.not_eq_true, Bool.not_eq_false'] at hreadable
    split
    · rename_i hreadOnly
      unfold beginReading
      split
      · exact .inl ⟨_, rfl⟩
      · simp only [hc]
        exact .inr ⟨hreadable, by simp [pin, locked, hreadOnly]⟩
    · rename_i hwritable
      split
      · exact .inl ⟨_, rfl⟩
      · refine .inr ⟨hreadable, ?_⟩
        simp [beginWriting, hc, autocommit, pin, locked, hwritable]

/-- A transaction cannot be begun inside another, which stays open and sees what it saw. -/
theorem begin_within_cases {c : Connection} {t : Transaction} (hc : c.transaction = some t) :
    ∃ cause t', c.begin .immediate = (.error cause, { c with transaction := some t' }) ∧
      (t'.view = t.view ∨ t'.view = some (t.view.getD (c.committed, c.commits))) ∧
      t'.touched = t.touched := by
  have hsame : c = { c with transaction := some t } := by rw [← hc]
  unfold begin
  simp only
  split
  · exact ⟨_, t, by rw [← hsame], .inl rfl, rfl⟩
  · split
    · unfold beginReading
      split
      · exact ⟨_, t, by rw [← hsame], .inl rfl, rfl⟩
      · simp only [hc, pin]
        exact ⟨_, _, rfl, .inr rfl, rfl⟩
    · split
      · exact ⟨_, t, by rw [← hsame], .inl rfl, rfl⟩
      · simp only [beginWriting, hc, autocommit, pin]
        exact ⟨_, _, rfl, .inr rfl, rfl⟩

/-- A commit that is refused leaves the committed tables alone; one that is not publishes what the
transaction saw, if it wrote. -/
theorem commit_cases {c : Connection} {t : Transaction} {db : Database} {n : Nat}
    (hc : c.transaction = some t) (ht : t.view = some (db, n)) :
    (∃ cause, c.commit.1 = .error cause ∧ c.commit.2.abandon = c.abandon) ∨
      (t.writing = false ∧ c.commit = (.ok (), c.abandon)) ∨
      (t.writing = true ∧ db.owes = false ∧ c.commitBlocked = false ∧
        c.commit = (.ok (), (c.publish db t.touched).abandon)) := by
  unfold commit
  simp only [hc, ht]
  cases hwriting : t.writing with
  | false => exact .inr (.inl ⟨rfl, rfl⟩)
  | true =>
    simp only
    split
    · exact .inl ⟨_, rfl, rfl⟩
    · rename_i howes
      split
      · exact .inl ⟨_, rfl, rfl⟩
      · rename_i hblocked
        exact .inr (.inr ⟨trivial, by simpa using howes, by simpa using hblocked, rfl⟩)

theorem abandon_rollback (c : Connection) : c.rollback.2.abandon = c.abandon := by
  unfold rollback
  split <;> rfl

theorem transaction_rollback (c : Connection) : c.rollback.2.transaction = none := by
  unfold rollback
  split
  · assumption
  · rfl

end JobBoard.Store.Connection
