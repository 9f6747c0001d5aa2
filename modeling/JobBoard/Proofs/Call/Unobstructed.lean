import JobBoard.Proofs.Call.Unhindered
import JobBoard.Proofs.Store.PlainTables

/-!
# Calls whose writes nothing obstructs

Inside a transaction or outside, a statement ends as its effect says if nothing keeps the connection
from writing and, outside, from committing (`Connection.write_of_done`,
`Connection.write_of_refused`). A name that is not there is then created, unless the rule of its
table forbids it (`Unobstructed.resolve`).
-/

set_option autoImplicit false

namespace JobBoard

open Observe Store

/-! ## Connections -/

namespace Store.Connection

variable {α : Type} {c : Connection} {u : Update α} {cause : Refusal}

/-- The file can be read, and nothing keeps the connection from turning to writing or, outside a
transaction, from committing. -/
structure Unobstructed (c : Connection) : Prop where
  readable : c.readable = true
  unread : c.readBlocked = false
  obstacle : c.writeObstacle? = none
  commits : c.transaction = none → c.commitBlocked = false

theorem Free.unobstructed (hc : c.Free) : c.Unobstructed where
  readable := hc.readable
  unread := hc.unread
  obstacle := by simp [writeObstacle?, hc.idle, hc.unread, hc.writable, hc.unlocked, pinned?]
  commits _ := hc.unblocked

theorem Unobstructed.schema (hc : c.Unobstructed) : c.schema = .ok c.view := by
  simp [Connection.schema, hc.readable, hc.unread]

theorem transaction_pin_eq_none_iff : c.pin.transaction = none ↔ c.transaction = none := by
  cases hc : c.transaction with
  | none => simp [pin_of_alone hc, hc]
  | some t => simp [pin, hc]

/-- A connection can write if its transaction does so already, or nobody is in its way and what it
sees is not out of date. -/
theorem writeObstacle?_eq_none_iff (c : Connection) :
    c.writeObstacle? = none ↔ (c.transaction.map Transaction.writing).getD false = true ∨
      c.readBlocked = false ∧ c.readOnly = false ∧ c.elsewhere.writing = false ∧
        ∀ seen ∈ c.pinned?, seen.2 = c.commits := by
  unfold writeObstacle?
  cases (c.transaction.map Transaction.writing).getD false <;> cases c.readBlocked <;>
    cases c.readOnly <;> cases c.elsewhere.writing <;> cases c.pinned? <;> simp

/-- A first look at the tables gets in nobody's way, and what it shows is not out of date. -/
theorem writeObstacle?_pin (h : c.writeObstacle? = none) : c.pin.writeObstacle? = none := by
  cases hc : c.transaction with
  | none => rwa [pin_of_alone hc]
  | some t =>
    have hpin : c.pin = { c with
        transaction := some { t with
          view := some (t.view.getD (c.committed, c.commits)) } } := by
      simp [pin, hc]
    rw [writeObstacle?_eq_none_iff] at h ⊢
    rw [hpin]
    rcases h with hwriting | ⟨-, hwritable, hunlocked, hseen⟩
    · exact .inl (by simpa [hc] using hwriting)
    · refine .inr ⟨by simp [readBlocked, pinned?], hwritable, hunlocked, ?_⟩
      rintro seen hseen'
      obtain rfl : t.view.getD (c.committed, c.commits) = seen := by
        simpa [pinned?] using hseen'
      cases ht : t.view with
      | none => rfl
      | some seen => exact hseen seen (by simp [pinned?, hc, ht])

theorem Unobstructed.pin (hc : c.Unobstructed) : c.pin.Unobstructed where
  readable := (readable_of_settings (settings_pin c)).trans hc.readable
  unread := readBlocked_pin hc.unread
  obstacle := writeObstacle?_pin hc.obstacle
  commits h := by
    rw [commitBlocked_of_settings (settings_pin c)]
    exact hc.commits (transaction_pin_eq_none_iff.1 h)

/-- A statement that is refused changes nothing that is seen. -/
theorem write_of_refused (hc : c.Unobstructed) {work : Work}
    (he : u c.view = .ok ((Effect.refuse c.view cause).working work)) (handsBack : α → Bool) :
    (c.write handsBack u).answer = .error cause ∧
      (c.write handsBack u).connection.view = c.view ∧
      (c.write handsBack u).connection.committed = c.committed := by
  simp only [write, hc.schema, Except.bind, he, hc.obstacle]
  cases htransaction : c.transaction with
  | none => exact ⟨rfl, rfl, rfl⟩
  | some t => exact ⟨rfl, rfl, rfl⟩

/-- A statement that is answered leaves the tables that it comes to. -/
theorem write_of_done (hc : c.Unobstructed) {db : Database} {n : Nat} {a : α} {work : Work}
    (he : u c.view = .ok ((Effect.done db n a).working work)) (howes : db.owes = false)
    (handsBack : α → Bool) :
    (c.write handsBack u).answer = .ok a ∧ (c.write handsBack u).connection.view = db := by
  simp only [write, hc.schema, Except.bind, he, hc.obstacle]
  cases htransaction : c.transaction with
  | none =>
    have hend : c.finishAlone handsBack ((Effect.done db n a).working work) =
        (.ok a, c.publish db (n != 0)) := by
      simp [finishAlone, Effect.done, howes, hc.commits htransaction]
    simp only [hend]
    exact ⟨trivial, view_of_alone htransaction⟩
  | some t => exact ⟨rfl, rfl⟩

end Store.Connection

/-- The error for a name that the rules of its dictionary forbid. -/
def blankName (d : Dictionary) : BoardError :=
  .badRequest ((Activity.create d).text ++ ": " ++ WriteFailure.checkViolation.describe)

namespace Call

variable {s s' : Call} {d : Dictionary} {x : Table Entry} {name : String}

/-- The token of the call never fires, and nothing obstructs its writes. -/
structure Unobstructed (s : Call) : Prop where
  live : s.signal.Live
  connection : s.connection.Unobstructed

theorem Unobstructed.unhindered (hs : s.Unobstructed) : s.Unhindered :=
  ⟨hs.live, hs.connection.readable, hs.connection.unread⟩

theorem Reads.unobstructed (h : Reads s s') (hs : s.Unobstructed) : s'.Unobstructed := by
  refine ⟨h.live hs.live, ?_⟩
  rcases h.connection with hc | hc
  · exact hc ▸ hs.connection
  · exact hc ▸ hs.connection.pin

/-- A name that is not there is created, unless the rule of its table forbids it. -/
theorem Unobstructed.insertName (hs : s.Unobstructed) (hdb : s.connection.view.Plain)
    (hx : s.connection.view.table (.dictionary d) = some x) (hnew : ∀ e ∈ x.rows, e.name ≠ name) :
    let rules := s.connection.ignoresRules || isWritten name
    let r := s.insertName d name
    r.2.signal.Live ∧
      ((rules = true ∧ r.1 = .ok (newEntry x name).id ∧
          r.2.connection.view = s.connection.view.withRow (.dictionary d) x (newEntry x name)) ∨
        (rules = false ∧ (∃ rule, r.1 = .error (.refused (.checkFailed rule))) ∧
          r.2.connection.view = s.connection.view ∧
          r.2.connection.committed = s.connection.committed)) := by
  intro rules r
  have hplain := hdb.of_table hx
  have hstate : r.2 = _ := state_insertName (d := d) name s
  obtain ⟨hanswer, hconnection, hlive⟩ := change_of_live hs.live (.entry d) Option.isSome
    (insertEntry s.connection.ignoresRules d name)
  rw [hstate, hconnection]
  refine ⟨hlive, ?_⟩
  cases hrules : rules with
  | true =>
    have hallowed : s.connection.ignoresRules = false → isWritten name = true := by
      intro hjudged
      simpa [rules, hjudged] using hrules
    have hrow : (s.connection.view.withRow (.dictionary d) x (newEntry x name)).Plain :=
      hdb.setTable ⟨hplain.noTriggers, hplain.strict⟩
    obtain ⟨work, hentered⟩ := insertEntry_of_new hx hplain.noTriggers hnew hallowed
    obtain ⟨hdone, hview⟩ :=
      Connection.write_of_done hs.connection hentered hrow.owes Option.isSome
    rw [hdone] at hanswer
    exact .inl ⟨rfl, (insertName_eq_ok_iff name s _).2 hanswer, hview⟩
  | false =>
    obtain ⟨hjudged, hblank⟩ := Bool.or_eq_false_iff.1 hrules
    obtain ⟨rule, work, hrefused⟩ := insertEntry_of_blank hx hplain.noTriggers hblank
    obtain ⟨herror, hview, hcommitted⟩ := Connection.write_of_refused hs.connection
      (hjudged ▸ hrefused) Option.isSome
    rw [herror] at hanswer
    exact .inr ⟨rfl, ⟨rule, insertName_of_error hanswer⟩, hview, hcommitted⟩

/-- So it is when the name is resolved; a name that a rule forbids is bad input. -/
theorem Unobstructed.resolve (hs : s.Unobstructed) (hdb : s.connection.view.Plain)
    (hx : s.connection.view.table (.dictionary d) = some x) (hnew : ∀ e ∈ x.rows, e.name ≠ name) :
    let rules := s.connection.ignoresRules || isWritten name
    let r := s.resolve d name
    r.2.signal.Live ∧
      ((rules = true ∧ r.1 = .ok (newEntry x name).id ∧
          r.2.connection.view = s.connection.view.withRow (.dictionary d) x (newEntry x name)) ∨
        (rules = false ∧ r.1 = .error (blankName d) ∧
          r.2.connection.view = s.connection.view ∧
          r.2.connection.committed = s.connection.committed)) := by
  have htold := reads_tell (.called .resolve) s
  have hanswer : ((s.tell (.called .resolve)).findId d name).1 = .ok none := by
    rw [answer_findId (htold.unhindered hs.unhindered) (htold.view ▸ hx), htold.view]
    congr 1
    rw [Database.idOf?_eq_none_iff, Database.rows_of_table hx]
    exact hnew
  have hlooked : Reads s ((s.tell (.called .resolve)).findId d name).2 :=
    htold.trans (reads_ask _ _)
  rcases hfind : (s.tell (.called .resolve)).findId d name with ⟨reply, s₁⟩
  rw [hfind] at hanswer hlooked
  obtain rfl : reply = .ok none := hanswer
  obtain ⟨hlive, hcases⟩ := (hlooked.unobstructed hs).insertName (hlooked.view ▸ hdb)
    (hlooked.view ▸ hx) hnew
  rw [hlooked.view, hlooked.committed, Connection.ignoresRules_of_settings hlooked.settings]
    at hcases
  rcases hinsert : s₁.insertName d name with ⟨reply, s₂⟩
  rw [hinsert] at hlive hcases
  rcases hcases with ⟨hrules, hok, hview⟩ | ⟨hrules, ⟨rule, herror⟩, hview, hcommitted⟩
  · obtain rfl : reply = _ := hok
    rw [Call.resolve, names.resolve_of_inserted d name hfind hinsert rfl]
    exact ⟨hlive, .inl ⟨hrules, rfl, hview⟩⟩
  · obtain rfl : reply = _ := herror
    have hafter : Stage.afterInsert d (.error (.refused (.checkFailed rule))) =
        .finished (.error (blankName d)) := rfl
    rw [Call.resolve, names.resolve_of_inserted d name hfind hinsert hafter]
    have htell : (names.tell (.failed .resolve (blankName d)) s₂).connection = s₂.connection :=
      connection_tell _ s₂
    refine ⟨live_tell hlive _, .inr ⟨hrules, rfl, ?_, ?_⟩⟩
    · exact (congrArg Connection.view htell).trans hview
    · exact (congrArg Connection.committed htell).trans hcommitted

end Call

end JobBoard
