import JobBoard.Proofs.Call.Telling
import JobBoard.Proofs.Call.Unhindered

/-!
# What stops an attachment is what its caller hears of

The edges of an attachment are inserted until one of them, or the token, stops the list
(`Stopped`). The transaction is then undone, which fails exactly where the store has ended it
already, and a failure to undo is told but changes nothing about the error. The main theorem is
`associate_never_masks`.
-/

set_option autoImplicit false

namespace JobBoard

open Cancel Observe Store

/-- The failure to undo a transaction that an event reports. -/
def Observe.Event.undoFailure? : Event → Option StoreError
  | .rollbackFailed _ e => some e
  | _ => none

/-! ## Edges that are refused -/

namespace Store

/-- An edge that is not there is refused, and the store ends the transaction over it or does not. -/
inductive EdgeRefused (ignoreRules : Bool) (k : EdgeKind) (edge : Edge) (db : Database) :
    Refusal → Bool → Prop where
  | raised {x : Table Edge} {reaction : Reaction} {m : String}
      (there : db.table (.edges k) = some x)
      (fires : firing? x.triggers (shownEdge k edge) = some reaction)
      (stops : reaction = .abort m ∨ reaction = .fail m) :
      EdgeRefused ignoreRules k edge db (.raised m) false
  | rolledBack {x : Table Edge} {m : String} (there : db.table (.edges k) = some x)
      (fires : firing? x.triggers (shownEdge k edge) = some (.rollback m)) :
      EdgeRefused ignoreRules k edge db (.raised m) true
  | barred {x : Table Edge} {cause : Refusal} (there : db.table (.edges k) = some x)
      (quiet : firing? x.triggers (shownEdge k edge) = none)
      (barred : (db.enter ignoreRules (.edges k) x edge).answer = .error cause)
      (new : cause.isDuplicate = false) : EdgeRefused ignoreRules k edge db cause false

variable {ignoreRules : Bool} {k : EdgeKind} {edge : Edge} {db : Database}

theorem Database.endsTransaction_enter (db : Database) (ignoreRules : Bool) (t : TableName)
    (x : Table t.Row) (a : t.Row) : (db.enter ignoreRules t x a).endsTransaction = false := by
  rcases db.enter_cases ignoreRules t x a with ⟨cause, n, heq, -⟩ | ⟨-, heq⟩ <;> rw [heq] <;> rfl

theorem exists_insertEdge (ignoreRules : Bool) (edge : Edge)
    (hobstacle : db.edgeObstacle? k = none) :
    ∃ e, insertEdge ignoreRules k edge db = .ok e ∧
      ∀ cause, e.answer = .error cause → cause.isDuplicate = false →
        EdgeRefused ignoreRules k edge db cause e.endsTransaction := by
  obtain ⟨x, hx⟩ := Database.table_of_edgeObstacle? hobstacle
  obtain ⟨work, heq⟩ := insertEdge_eq ignoreRules hobstacle hx edge
  refine ⟨_, heq, fun cause hcause hnew => ?_⟩
  rw [Effect.answer_working] at hcause
  rw [Effect.endsTransaction_working]
  cases hfires : firing? x.triggers (shownEdge k edge) with
  | none =>
    simp only [hfires] at hcause ⊢
    rw [db.endsTransaction_enter]
    exact .barred hx hfires hcause hnew
  | some reaction =>
    simp only [hfires] at hcause ⊢
    cases reaction with
    | ignore => exact nomatch hcause
    | abort m =>
      obtain rfl : Refusal.raised m = cause := Except.error.inj hcause
      exact .raised hx hfires (.inl rfl)
    | fail m =>
      obtain rfl : Refusal.raised m = cause := Except.error.inj hcause
      exact .raised hx hfires (.inr rfl)
    | rollback m =>
      obtain rfl : Refusal.raised m = cause := Except.error.inj hcause
      exact .rolledBack hx hfires

theorem Database.occupant_setTable_of_ne (db : Database) {t u : TableName}
    (x : Option (Table t.Row)) (h : u ≠ t) : (db.setTable t x).occupant u = db.occupant u := by
  have hforeign : (db.setTable t x).foreign = db.foreign := by cases t <;> rfl
  unfold occupant foreignTable?
  rw [table_setTable_of_ne db x h, hforeign]

/-- What keeps edges from being inserted is not changed by one more of them. -/
theorem Database.edgeObstacle?_withRow {x : Table Edge} (hx : db.table (.edges k) = some x) :
    (db.withRow (.edges k) x edge).edgeObstacle? k = db.edgeObstacle? k := by
  have hrow : (db.withRow (.edges k) x edge).table (.edges k) =
      some { x with rows := x.rows ++ [edge] } := table_setTable_self db (.edges k) _
  have htarget : ∀ t, t ≠ .edges k →
      (db.withRow (.edges k) x edge).lostTarget? (.edges k) t = db.lostTarget? (.edges k) t := by
    intro t ht
    rw [lostTarget?, withRow, occupant_setTable_of_ne db _ ht, lostTarget?]
  rw [edgeObstacle?, edgeObstacle?, (occupant_eq_own_iff _ (.edges k) _).2 hrow,
    (occupant_eq_own_iff _ (.edges k) _).2 hx]
  simp only [lostReference?, hrow, hx, relation, edgeRelation, List.findSome?_cons,
    List.findSome?_nil, htarget _ (ofOwner_ne_edges k.owner k),
    htarget (.dictionary k.dictionary) (by simp)]

end Store

/-! ## Lists of edges that are stopped -/

/-- One edge stops the list, on a connection and under a token that has fired in the end for a
reason or not at all: the call is given up before the edge, or at a look at its insertion; or the
file cannot be written; or the edge is refused. The flag says whether the store has ended the
transaction, which it does if an insertion is given up that is not settled. -/
inductive EdgeStopped (c : Connection) (reason : Option Reason) (k : EdgeKind) (taken : Nat)
    (edge : Edge) (db : Database) : StoreError → Bool → Prop where
  | abandoned {r : Reason} (fired : reason = some r) :
      EdgeStopped c reason k taken edge db (.abandoned r) false
  | noticed {r : Reason} {e : Effect Unit} {l : Look}
      (ran : insertEdge c.ignoresRules k edge db = .ok e)
      (looked : l ∈ e.work.looks e.writes taken) (fired : reason = some r) :
      EdgeStopped c reason k taken edge db (.abandoned r) (!l.settled || e.endsTransaction)
  | unwritable (readOnly : c.readOnly = true) :
      EdgeStopped c reason k taken edge db (.refused .readOnly) false
  | refused {cause : Refusal} {ended : Bool}
      (refused : EdgeRefused c.ignoresRules k edge db cause ended) :
      EdgeStopped c reason k taken edge db (.refused cause) ended

/-- The first edge of a list that is stopped, after others that were not, or the token after the
last of them. The insertion is one statement for all edges, and its steps add up. -/
inductive ListStopped (c : Connection) (reason : Option Reason) (k : EdgeKind) (owner : Int) :
    Nat → List Int → Database → BoardError → Bool → Prop where
  | here {taken : Nat} {id : Int} {rest : List Int} {db : Database} {e : StoreError} {ended : Bool}
      (stopped : EdgeStopped c reason k taken ⟨owner, id⟩ db e ended) :
      ListStopped c reason k owner taken (id :: rest) db (.ofFailedWrite (Activity.add k).text e)
        ended
  | later {taken : Nat} {id : Int} {rest : List Int} {n : Nat} {db db' : Database}
      {effect : Effect Unit} {e : BoardError} {ended : Bool}
      (ran : insertEdge c.ignoresRules k ⟨owner, id⟩ db = .ok effect)
      (first : EdgeTried c.ignoresRules k ⟨owner, id⟩ db n db')
      (stopped : ListStopped c reason k owner (taken + effect.work.total effect.writes) rest db' e
        ended) :
      ListStopped c reason k owner taken (id :: rest) db e ended
  | finish {taken : Nat} {db : Database} {r : Reason} (fired : reason = some r) :
      ListStopped c reason k owner taken [] db
        (.internal (Activity.finish k).text (some (.abandoned r))) false

theorem EdgeStopped.of_settings {c c' : Connection} {reason : Option Reason} {k : EdgeKind}
    {taken : Nat} {edge : Edge} {db : Database} {e : StoreError} {ended : Bool}
    (hc : c'.settings = c.settings) (h : EdgeStopped c' reason k taken edge db e ended) :
    EdgeStopped c reason k taken edge db e ended := by
  have hrules := Connection.ignoresRules_of_settings hc
  cases h with
  | abandoned fired => exact .abandoned fired
  | noticed ran looked fired => exact .noticed (hrules ▸ ran) looked fired
  | unwritable readOnly =>
    exact .unwritable ((Connection.readOnly_of_settings hc).symm.trans readOnly)
  | refused refused => exact .refused (hrules ▸ refused)

theorem EdgeTried.edgeObstacle? {ignoreRules : Bool} {k : EdgeKind} {edge : Edge} {n : Nat}
    {db db' : Database} (h : EdgeTried ignoreRules k edge db n db') :
    db'.edgeObstacle? k = db.edgeObstacle? k := by
  cases h with
  | present => rfl
  | leftOut => rfl
  | letIn there => exact Database.edgeObstacle?_withRow there

/-- Edges that were all tried are no reason; only the token after them is. -/
theorem EdgesTried.stopped {c : Connection} {reason : Option Reason} {k : EdgeKind} {owner : Int}
    {ids : List Int} {n : Nat} {db db' : Database} {r : Reason}
    (h : EdgesTried c.ignoresRules k owner ids db n db') (hprepared : db.edgeObstacle? k = none)
    (hfired : reason = some r) (taken : Nat) :
    ListStopped c reason k owner taken ids db
      (.internal (Activity.finish k).text (some (.abandoned r))) false := by
  induction h generalizing taken with
  | nil => exact .finish hfired
  | cons first _ ih =>
    obtain ⟨e, he, -⟩ := exists_insertEdge c.ignoresRules _ hprepared
    exact .later he first (ih (first.edgeObstacle?.trans hprepared) _)

/-- What stops the insertions of an attachment: they cannot be compiled, or the list is stopped. -/
inductive Stopped (c : Connection) (reason : Option Reason) (k : EdgeKind) (owner : Int)
    (ids : List Int) : BoardError → Bool → Prop where
  | unprepared {cause : Refusal} (obstacle : c.committed.edgeObstacle? k = some cause) :
      Stopped c reason k owner ids
        (.internal (Activity.prepare k).text (some (.refused cause))) false
  | list {e : BoardError} {ended : Bool} (prepared : c.committed.edgeObstacle? k = none)
      (stopped : ListStopped c reason k owner 0 ids c.committed e ended) :
      Stopped c reason k owner ids e ended

namespace Call

variable {k : EdgeKind} {owner : Int} {s s' : Call} {t : Transaction} {db : Database}

/-- An attachment in its transaction. Unless the file cannot be written, the transaction holds the
lock for writing. -/
structure Attaching (k : EdgeKind) (s : Call) (t : Transaction) (db : Database) : Prop where
  within : s.Within t db
  readable : s.connection.readable = true
  writing : t.writing = true ∨ s.connection.readOnly = true
  prepared : db.edgeObstacle? k = none

/-- The next edge of an attachment is given up before it runs or at a look at its insertion, or it
ends as its insertion does. -/
theorem changeEdge_cases (hs : Attaching k s t db) (edge : Edge) :
    let insertion := insertEdge s.connection.ignoresRules k edge
    let taken := s.taken.ofStatement .edge
    let r := s.change .edge (fun _ => false) insertion
    (∃ reason, r.2.signal.reason = some reason ∧ r.1 = .error (.abandoned reason) ∧
        r.2.connection = s.connection) ∨
      (∃ e, insertion db = .ok e ∧ ∃ l ∈ e.work.looks e.writes taken, ∃ reason,
        r.2.signal.reason = some reason ∧ r.1 = .error (.abandoned reason) ∧
        r.2.connection.autocommit = (!l.settled || e.endsTransaction)) ∨
      (s.connection.readOnly = true ∧ r.1 = .error (.refused .readOnly) ∧
        r.2.connection = s.connection) ∨
      ∃ e, insertion db = .ok e ∧ r.1 = e.answer.mapError .refused ∧
        r.2.connection = s.connection.finishWithin t e ∧
        r.2.taken.ofStatement .edge = taken + e.work.total e.writes := by
  intro insertion taken r
  obtain ⟨⟨htransaction, n, hview⟩, hreadable, hwriting, hprepared⟩ := hs
  obtain ⟨e, he, -⟩ := exists_insertEdge s.connection.ignoresRules edge hprepared
  rcases s.check_cases with ⟨reason, hreason, hcheck⟩ | ⟨-, hcheck⟩
  · have hr : r = (.error (.abandoned reason), s.check.2) :=
      change_of_abandoned .edge _ insertion hcheck
    rw [hr]
    exact .inl ⟨reason, by rw [signal_check, hreason], rfl, connection_check s⟩
  have hchange := change_of_checked .edge (fun _ => false) insertion hcheck
  simp only [looksAt] at hchange
  cases hturned : t.writing with
  | true =>
    rw [Connection.write_of_writing hreadable htransaction hview hturned he] at hchange
    rcases hchange with ⟨l, hl, reason, hanswer, hreason, hsignal, hconnection⟩ |
      ⟨hanswer, hconnection, -, htaken⟩
    · refine .inr (.inl ⟨e, he, l, hl, reason, hsignal ▸ hreason, hanswer, ?_⟩)
      rw [hconnection]
      cases l.settled with
      | true => exact Connection.autocommit_finishWithin t e _
      | false => rfl
    · refine .inr (.inr (.inr ⟨e, he, hanswer, hconnection, ?_⟩))
      rw [htaken, Taken.ofStatement_advance _ (by simp)]
  | false =>
    have hreadOnly : s.connection.readOnly = true := hwriting.resolve_left (by simp [hturned])
    rw [Connection.write_of_readOnly hreadable htransaction hview hturned hreadOnly he] at hchange
    rcases hchange with ⟨l, hl, reason, hanswer, hreason, hsignal, hconnection⟩ |
      ⟨hanswer, hconnection, -⟩
    -- what is refused at once is settled at every look, and leaves the transaction open
    · rw [Work.settled_of_mem_looks rfl hl] at hconnection
      exact .inl ⟨reason, hsignal ▸ hreason, hanswer, hconnection⟩
    · exact .inr (.inr (.inl ⟨hreadOnly, hanswer, hconnection⟩))

/-- An insertion that ended, if only in a clash, has added its steps to those of the statement. -/
theorem exists_of_changeEdge (hs : Attaching k s t db) (edge : Edge)
    (h : ∀ e, (s.change .edge (fun _ => false)
      (insertEdge s.connection.ignoresRules k edge)).1 = .error e →
        e.writeFailure = .uniqueViolation) :
    let r := s.change .edge (fun _ => false) (insertEdge s.connection.ignoresRules k edge)
    ∃ e, insertEdge s.connection.ignoresRules k edge db = .ok e ∧
      r.2.taken.ofStatement .edge = s.taken.ofStatement .edge + e.work.total e.writes := by
  rcases changeEdge_cases hs edge with
    ⟨reason, -, hanswer, -⟩ | ⟨-, -, -, -, reason, -, hanswer, -⟩ | ⟨-, hanswer, -⟩ |
      ⟨e, he, -, -, htaken⟩
  · exact nomatch h _ hanswer
  · exact nomatch h _ hanswer
  · exact nomatch h _ hanswer
  · exact ⟨e, he, htaken⟩

/-- An edge that stops an attachment, apart from one that is there. The store has ended the
transaction if none is open any more. -/
theorem edgeStopped_of_error (hs : Attaching k s t db) (edge : Edge) {e : StoreError}
    (he : (s.change .edge (fun _ => false)
      (insertEdge s.connection.ignoresRules k edge)).1 = .error e)
    (hnew : e.writeFailure ≠ .uniqueViolation) :
    let r := s.change .edge (fun _ => false) (insertEdge s.connection.ignoresRules k edge)
    EdgeStopped s.connection r.2.signal.reason k (s.taken.ofStatement .edge) edge db e
      r.2.connection.autocommit := by
  intro r
  have hopen : s.connection.autocommit = false := by
    rw [Connection.autocommit, hs.within.1]
    rfl
  rcases changeEdge_cases hs edge with
    ⟨reason, hfired, hanswer, hconnection⟩ |
      ⟨effect, heffect, l, hl, reason, hfired, hanswer, hends⟩ |
      ⟨hreadOnly, hanswer, hconnection⟩ | ⟨effect, heffect, hanswer, hconnection, -⟩
  · obtain rfl : StoreError.abandoned reason = e := Except.error.inj (hanswer.symm.trans he)
    rw [hconnection, hopen]
    exact .abandoned hfired
  · obtain rfl : StoreError.abandoned reason = e := Except.error.inj (hanswer.symm.trans he)
    rw [hends]
    exact .noticed heffect hl hfired
  · obtain rfl : StoreError.refused .readOnly = e := Except.error.inj (hanswer.symm.trans he)
    rw [hconnection, hopen]
    exact .unwritable hreadOnly
  · obtain ⟨effect', heffect', hrefused⟩ :=
      exists_insertEdge s.connection.ignoresRules edge hs.prepared
    obtain rfl : effect = effect' := Except.ok.inj (heffect.symm.trans heffect')
    rw [hanswer] at he
    cases hcause : effect.answer with
    | ok u => simp [hcause, Except.mapError] at he
    | error cause =>
      obtain rfl : StoreError.refused cause = e := by simpa [hcause, Except.mapError] using he
      rw [hconnection, Connection.autocommit_finishWithin]
      refine .refused (hrefused cause hcause ?_)
      rwa [Ne, StoreError.writeFailure_refused_eq_unique_iff, Bool.not_eq_true] at hnew

/-- The insertions of a transaction, by induction on the edges that are left. -/
theorem addEach_stopped {c : Connection} (owner : Int) (ids : List Int) (skipped : Nat)
    {e : BoardError} (hc : s.connection.settings = c.settings) (hs : Attaching k s t db)
    (he : (s.addEach k owner ids skipped).1 = .error e) :
    let r := s.addEach k owner ids skipped
    ListStopped c r.2.signal.reason k owner (s.taken.ofStatement .edge) ids db e
      r.2.connection.autocommit := by
  induction ids generalizing s skipped t db with
  | nil => simp [addEach] at he
  | cons id rest ih =>
    obtain ⟨houtside, hcases⟩ := addOne_cases k owner hs.within id
    have hstopped := fun e => edgeStopped_of_error hs ⟨owner, id⟩ (e := e)
    have hran := exists_of_changeEdge hs ⟨owner, id⟩
    rw [addEach] at he ⊢
    generalize s.change .edge (fun _ => false)
      (insertEdge s.connection.ignoresRules k ⟨owner, id⟩) = r at he houtside hcases hstopped hran ⊢
    rcases hcases with ⟨e', hanswer, hnew⟩ | ⟨n, db', t', htried, hwithin, hwriting, -, hend⟩
    · obtain ⟨outcome, s'⟩ := r
      obtain rfl : outcome = .error e' := hanswer
      simp only [if_neg hnew] at he ⊢
      obtain rfl := Except.error.inj he
      exact .here ((hstopped e' rfl hnew).of_settings hc)
    · have hnext : Attaching k r.2 t' db' :=
        { within := hwithin
          readable := (Connection.readable_of_settings houtside.settings).trans hs.readable
          writing := .inl hwriting
          prepared := htried.edgeObstacle?.trans hs.prepared }
      have hsettings : r.2.connection.settings = c.settings := houtside.settings.trans hc
      rw [Connection.ignoresRules_of_settings hc] at htried hran
      obtain ⟨outcome, s'⟩ := r
      rcases hend with ⟨hanswer, -⟩ | ⟨e', hanswer, hclash, -⟩
      · obtain rfl : outcome = .ok () := hanswer
        obtain ⟨effect, hinserted, htaken⟩ := hran (by simp)
        have hrest := ih skipped hsettings hnext he
        rw [htaken] at hrest
        exact .later hinserted htried hrest
      · obtain rfl : outcome = .error e' := hanswer
        obtain ⟨effect, hinserted, htaken⟩ := hran fun _ h => Except.error.inj h ▸ hclash
        simp only [if_pos hclash] at he ⊢
        have hrest := ih (skipped + 1) hsettings hnext he
        rw [htaken] at hrest
        exact .later hinserted htried hrest

/-- Everything before the commit, in a transaction that was just begun. -/
theorem addAll_stopped {c : Connection} (owner : Int) (ids : List Int) {e : BoardError}
    (hs : s.connection = c.locked) (hreadable : c.readable = true)
    (he : (s.addAll k owner ids).1 = .error e) :
    let r := s.addAll k owner ids
    Stopped c r.2.signal.reason k owner ids e r.2.connection.autocommit := by
  have hsettings : s.connection.settings = c.settings := by
    rw [hs]
    rfl
  have hwithin : s.Within { view := some (c.committed, c.commits), writing := !c.readOnly }
      c.committed := ⟨by rw [hs]; rfl, _, rfl⟩
  have hview : s.connection.view = c.committed := Connection.view_of_pinned hwithin.1 rfl
  rw [addAll, hview] at he ⊢
  cases hobstacle : c.committed.edgeObstacle? k with
  | some cause =>
    simp only [hobstacle] at he ⊢
    obtain rfl := Except.error.inj he
    rw [show s.connection.autocommit = false by rw [hs]; rfl]
    exact .unprepared hobstacle
  | none =>
    simp only [hobstacle] at he ⊢
    have hattaching : Attaching k (s.prepare .edge) _ c.committed :=
      { within := hwithin
        readable := (Connection.readable_of_settings hsettings).trans hreadable
        writing := by
          rw [show (s.prepare .edge).connection.readOnly = c.readOnly from
            Connection.readOnly_of_settings hsettings]
          simp
        prepared := hobstacle }
    have hstopped := fun e =>
      addEach_stopped (s := s.prepare .edge) owner ids 0 (e := e) hsettings hattaching
    rw [show (s.prepare .edge).taken.ofStatement .edge = 0 from Taken.ofStatement_without _ _]
      at hstopped
    obtain ⟨-, hcases⟩ := addEach_tries k owner ids 0 hattaching.within
    rw [show (s.prepare .edge).connection.ignoresRules = c.ignoresRules from
      Connection.ignoresRules_of_settings hsettings] at hcases
    generalize (s.prepare .edge).addEach k owner ids 0 = r at he hstopped hcases ⊢
    rcases r with ⟨e' | skipped, s'⟩
    · obtain rfl := Except.error.inj he
      exact .list hobstacle (hstopped e' rfl)
    · obtain ⟨e', hanswer⟩ | ⟨m, db', t', -, htried, ⟨hopen, -⟩, -⟩ := hcases
      · exact nomatch hanswer
      -- all edges were tried, so it is the last look at the token that stops the list
      dsimp only at he hopen ⊢
      rcases s'.check_cases with ⟨reason, hreason, hgiven⟩ | ⟨-, hgiven⟩
      · rw [show s'.check = (.error (.abandoned reason), s'.check.2) from Prod.ext hgiven rfl]
          at he ⊢
        obtain rfl := Except.error.inj he
        have hstill : s'.check.2.connection.autocommit = false := by
          rw [connection_check, Connection.autocommit, hopen]
          rfl
        have hfired : s'.check.2.signal.reason = some reason := by rw [signal_check, hreason]
        show Stopped c s'.check.2.signal.reason k owner ids _ s'.check.2.connection.autocommit
        rw [hstill]
        exact .list hobstacle (htried.stopped hobstacle hfired 0)
      · rw [show s'.check = (.ok (), s'.check.2) from Prod.ext hgiven rfl] at he
        cases he

/-! ## The whole call -/

/-- The failures to undo a transaction that a call tells between two of its states. -/
def undoFailures (s s' : Call) : List StoreError := (emitted s s').filterMap Event.undoFailure?

theorem undoFailures_observed {α : Type} {op : Operation} {run : Call → Answered Call α}
    {between : List Event} (h : Tells (s.tell (.called op)) between (run (s.tell (.called op))).2) :
    undoFailures s (observed tell op run s).2 = between.filterMap Event.undoFailure? := by
  rw [undoFailures, (mirrors_observed h).emitted_eq, List.filterMap_cons, List.filterMap_append]
  cases raised? (observed tell op run s).1 <;> simp [report, Event.undoFailure?]

/-- What the insertions come to in their transaction, before that is committed or undone; nothing if
no transaction is begun. -/
def insertedIn? (k : EdgeKind) (owner : Int) (ids : List Int) (s : Call) :
    Option (Answered Call Nat) :=
  match s.check.1, s.connection.begin .immediate with
  | .ok (), (.ok (), c) => some ({ s.check.2 with connection := c }.addAll k owner ids)
  | _, _ => none

/-- What the insertions of an attachment come to in its transaction; there are none for an empty
list. -/
def inserted? (k : EdgeKind) (owner : Int) (ids : List Int) (s : Call) :
    Option (Answered Call Nat) :=
  if ids = [] then none else (s.tell (.called .associate)).insertedIn? k owner ids

/-- Whatever the insertions come to is what is reported of them, and only undoing them where the
store has ended the transaction is told. -/
theorem insertEdges_reports (k : EdgeKind) (owner : Int) (ids : List Int)
    (hs : s.connection.transaction = none) :
    let r := s.insertEdges k owner ids
    match s.insertedIn? k owner ids with
    | none =>
      Tells s [] r.2 ∧
        ((∃ reason, r.1 =
          .error (.internal (Activity.start k).text (some (.abandoned reason)))) ∨
          ∃ cause, r.1 = .error (.internal (Activity.begin k).text (some (.refused cause))))
    | some (.error e, s') =>
      r.1 = .error e ∧
        Stopped s.connection s'.signal.reason k owner ids e s'.connection.autocommit ∧
        Tells s (if s'.connection.autocommit then
          [.rollbackFailed .associate (.refused .nothingToRollBack)] else []) r.2
    | some (.ok _, s') =>
      Tells s [] r.2 ∧
        r.1 = s'.connection.commit.1.mapError fun cause =>
          .internal (Activity.commit k).text (some (.refused cause)) := by
  intro r
  have hchecked : Tells s [] s.check.2 := .of_notes_eq (notes_check s)
  rcases s.check_cases with ⟨reason, -, hcheck⟩ | ⟨-, hcheck⟩
  · have hr : r = _ := insertEdges_of_abandoned k owner hcheck ids
    simp only [insertedIn?, hcheck, hr]
    exact ⟨hchecked, .inl ⟨reason, rfl⟩⟩
  rcases Connection.begin_alone_cases hs with ⟨cause, hbegin⟩ | ⟨hreadable, hbegin⟩
  · have hr : r = _ := insertEdges_of_unbegun k owner hcheck hbegin ids
    simp only [insertedIn?, hcheck, hbegin, hr]
    exact ⟨hchecked, .inr ⟨cause, rfl⟩⟩
  have hr : r = _ := insertEdges_of_begun k owner hcheck hbegin ids
  have hbegun : Tells s [] { s.check.2 with connection := s.connection.locked } :=
    .of_notes_eq (notes_check s)
  simp only [insertedIn?, hcheck, hbegin, hr]
  have hstopped := fun e => addAll_stopped (k := k) owner ids (e := e)
    (s := { s.check.2 with connection := s.connection.locked }) rfl hreadable
  have hadded := hbegun.trans (.of_notes_eq (notes_addAll k owner ids _))
  generalize addAll k owner ids _ = added at hstopped hadded ⊢
  rcases added with ⟨e | skipped, s'⟩
  · exact ⟨rfl, hstopped e rfl, hadded.trans (tells_undoEdges s')⟩
  · refine ⟨hadded.trans (tells_commitEdges k ids.length skipped s'), ?_⟩
    show (s'.commitEdges k ids.length skipped).1 = _
    rw [commitEdges]
    generalize s'.connection.commit = committed
    rcases committed with ⟨_ | _, c⟩ <;> rfl

/-- An attachment ends as it was before if it fails. -/
theorem connection_associate_of_error (owner : Int) (ids : List Int)
    (hs : s.connection.transaction = none) {e : BoardError}
    (he : (s.associate k owner ids).1 = .error e) :
    (s.associate k owner ids).2.connection = s.connection := by
  have hids : ids ≠ [] := by
    rintro rfl
    exact nomatch he
  obtain ⟨hnone, ⟨-, houtside⟩ | ⟨hok, -⟩⟩ := associate_settles k owner hids hs
  · rw [← Connection.abandon_of_alone hnone, houtside, Connection.abandon_of_alone hs]
  · exact nomatch he.symm.trans hok

/-- The error of an attachment is that of the first edge, or of the token, that stopped it, whatever
comes of undoing its transaction. That fails, and is told, exactly if the store had ended the
transaction by then. It is not tried where no transaction could be begun, nor where all edges went
in, even if the commit fails, which is internal. On every error the connection is what it was, and
in no case is a transaction left open. -/
theorem associate_never_masks (k : EdgeKind) (owner : Int) (ids : List Int) (s : Call)
    (hs : s.connection.transaction = none) :
    let r := s.associate k owner ids
    r.2.connection.transaction = none ∧
      (∀ e, r.1 = .error e → r.2.connection = s.connection) ∧
      match s.inserted? k owner ids with
      | none =>
        undoFailures s r.2 = [] ∧
          (ids = [] ∧ r.1 = .ok () ∨
            (∃ reason, r.1 =
              .error (.internal (Activity.start k).text (some (.abandoned reason)))) ∨
            ∃ cause, r.1 = .error (.internal (Activity.begin k).text (some (.refused cause))))
      | some (.error e, s') =>
        r.1 = .error e ∧
          Stopped s.connection s'.signal.reason k owner ids e s'.connection.autocommit ∧
          undoFailures s r.2 =
            if s'.connection.autocommit then [.refused .nothingToRollBack] else []
      | some (.ok _, s') =>
        undoFailures s r.2 = [] ∧
          r.1 = s'.connection.commit.1.mapError fun cause =>
            .internal (Activity.commit k).text (some (.refused cause)) := by
  intro r
  have hclosed : r.2.connection.transaction = none := ((leads_associate
    (List.mem_singleton_self (Area.edges k owner)) ids s) hs).1
  refine ⟨hclosed, fun e he => connection_associate_of_error owner ids hs he, ?_⟩
  by_cases hids : ids = []
  · subst hids
    refine ⟨?_, .inl ⟨rfl, rfl⟩⟩
    rw [undoFailures, show r.2 = s from rfl, (Tells.refl s).emitted_eq]
    rfl
  have hr : r = observed tell .associate (fun s => s.insertEdges k owner ids) s :=
    associate_of_ne_nil k owner hids s
  have hanswer : r.1 = ((s.tell (.called .associate)).insertEdges k owner ids).1 := by
    rw [hr, answer_observed]
  have htells : ∀ between, Tells (s.tell (.called .associate)) between
      ((s.tell (.called .associate)).insertEdges k owner ids).2 →
      undoFailures s r.2 = between.filterMap Event.undoFailure? := by
    intro between h
    rw [hr]
    exact undoFailures_observed h
  have htold := connection_tell (.called .associate) s
  rw [← htold] at hs
  have hreports := insertEdges_reports k owner ids hs
  rw [inserted?, if_neg hids]
  revert hreports
  rcases (s.tell (.called .associate)).insertedIn? k owner ids with _ | ⟨e | skipped, s'⟩
  · rintro ⟨hnone, hends⟩
    rw [hanswer]
    exact ⟨htells [] hnone, .inr hends⟩
  · rintro ⟨herror, hstopped, hundone⟩
    rw [htold] at hstopped
    refine ⟨hanswer.trans herror, hstopped, ?_⟩
    rw [htells _ hundone]
    cases s'.connection.autocommit <;> simp [Event.undoFailure?]
  · rintro ⟨hnone, hends⟩
    exact ⟨htells [] hnone, hanswer.trans hends⟩

/-- A call on the small store, where a trigger reacts to edges to the second skill. -/
def watched (reaction : Reaction) : Call where
  connection := {
    committed := Database.sample.setTable (.edges .vacancySkill) (some {
      rows := [⟨1, 1⟩]
      triggers := [⟨"skill_id", .integer 2, reaction⟩] }) }

/-- A call on the small store whose token fires at the first look at a statement under way. -/
def interruptible : Call := { sample with signal := { alarms := [⟨.look, 1, .cancelled⟩] } }

/-- What insertions come to, and whether the store has ended their transaction. -/
def ending (r : Answered Call Nat) : Except BoardError Nat × Bool :=
  (r.1, r.2.connection.autocommit)

/-- The second skill stops the list. If the store ends the transaction over it, undoing it fails and
is told, and otherwise it is undone without a word; the error is the same. The store ends it also
when it gives up an insertion under way, as it does with the new edge after thirty-nine insertions
of one that is there. -/
theorem associate_never_masks_sample :
    let gone := (watched (.rollback "no")).associate .vacancySkill 1 [1, 2]
    let kept := (watched (.abort "no")).associate .vacancySkill 1 [1, 2]
    let lost := interruptible.associate .vacancySkill 1 (List.replicate 39 1 ++ [2])
    gone.1 = .error (.internal (Activity.add .vacancySkill).text (some (.refused (.raised "no")))) ∧
      undoFailures (watched (.rollback "no")) gone.2 = [.refused .nothingToRollBack] ∧
      kept.1 = gone.1 ∧ undoFailures (watched (.abort "no")) kept.2 = [] ∧
      lost.1 = .error (.internal (Activity.add .vacancySkill).text (some (.abandoned .cancelled))) ∧
      undoFailures interruptible lost.2 = [.refused .nothingToRollBack] := by
  have hgone : ((watched (.rollback "no")).inserted? .vacancySkill 1 [1, 2]).map ending =
      some (.error (.internal (Activity.add .vacancySkill).text
        (some (.refused (.raised "no")))), true) := by
    decide +kernel
  have hkept : ((watched (.abort "no")).inserted? .vacancySkill 1 [1, 2]).map ending =
      some (.error (.internal (Activity.add .vacancySkill).text
        (some (.refused (.raised "no")))), false) := by
    decide +kernel
  have hlost :
      (interruptible.inserted? .vacancySkill 1 (List.replicate 39 1 ++ [2])).map ending =
        some (.error (.internal (Activity.add .vacancySkill).text
          (some (.abandoned .cancelled))), true) := by
    decide +kernel
  obtain ⟨⟨_, s₁⟩, hinserted₁, hends₁⟩ := Option.map_eq_some_iff.1 hgone
  obtain ⟨⟨_, s₂⟩, hinserted₂, hends₂⟩ := Option.map_eq_some_iff.1 hkept
  obtain ⟨⟨_, s₃⟩, hinserted₃, hends₃⟩ := Option.map_eq_some_iff.1 hlost
  obtain ⟨rfl, hended₁⟩ := Prod.mk.inj hends₁
  obtain ⟨rfl, hended₂⟩ := Prod.mk.inj hends₂
  obtain ⟨rfl, hended₃⟩ := Prod.mk.inj hends₃
  have h₁ := (associate_never_masks .vacancySkill 1 [1, 2] (watched (.rollback "no")) rfl).2.2
  have h₂ := (associate_never_masks .vacancySkill 1 [1, 2] (watched (.abort "no")) rfl).2.2
  have h₃ := (associate_never_masks .vacancySkill 1 (List.replicate 39 1 ++ [2]) interruptible
    rfl).2.2
  simp only [hinserted₁, hended₁, if_true] at h₁
  simp only [hinserted₂, hended₂, Bool.false_eq_true, if_false] at h₂
  simp only [hinserted₃, hended₃, if_true] at h₃
  exact ⟨h₁.1, h₁.2.2, h₂.1.trans h₁.1.symm, h₂.2.2, h₃.1, h₃.2.2⟩

end Call

end JobBoard
