import JobBoard.Call.Edges
import JobBoard.Proofs.Call.Guard

/-!
# Attaching edges is all or nothing

The transaction of an attachment tries the edges one after the other (`EdgesTried`). Until the
commit the committed tables are out of reach (`addEach_tries`), and whatever stops the attachment,
nothing of it is left. A commit that succeeds publishes exactly the edges that were tried. The main
theorem is `associate_all_or_nothing`.
-/

set_option autoImplicit false

namespace JobBoard

open Store

/-! ## Trying edges -/

/-- One edge is tried, and is found there already, or is left out by a trigger, or is let in. The
number counts the edges passed over because they are there. -/
inductive EdgeTried (ignoreRules : Bool) (k : EdgeKind) (edge : Edge) :
    Database → Nat → Database → Prop where
  | present {db : Database} {x : Table Edge} (there : db.table (.edges k) = some x)
      (mem : edge ∈ x.rows) : EdgeTried ignoreRules k edge db 1 db
  | leftOut {db : Database} {x : Table Edge} (there : db.table (.edges k) = some x)
      (triggers : x.triggers ≠ []) : EdgeTried ignoreRules k edge db 0 db
  | letIn {db : Database} {x : Table Edge} (there : db.table (.edges k) = some x)
      (admitted : db.AdmitsEdge ignoreRules k x edge) :
      EdgeTried ignoreRules k edge db 0 (db.withRow (.edges k) x edge)

/-- The edges from one owner to a list of entries are tried in order. -/
inductive EdgesTried (ignoreRules : Bool) (k : EdgeKind) (owner : Int) :
    List Int → Database → Nat → Database → Prop where
  | nil {db : Database} : EdgesTried ignoreRules k owner [] db 0 db
  | cons {id : Int} {ids : List Int} {n m : Nat} {db db' db'' : Database}
      (first : EdgeTried ignoreRules k ⟨owner, id⟩ db n db')
      (rest : EdgesTried ignoreRules k owner ids db' m db'') :
      EdgesTried ignoreRules k owner (id :: ids) db (n + m) db''

theorem EdgeTried.steps {ignoreRules : Bool} {k : EdgeKind} {owner id : Int} {n : Nat}
    {db db' : Database} (h : EdgeTried ignoreRules k ⟨owner, id⟩ db n db') :
    Database.Steps ignoreRules [.edges k owner] db db' := by
  cases h with
  | present => exact .refl
  | leftOut => exact .refl
  | letIn there admitted => exact .single (List.mem_singleton_self _) (.attach there admitted)

theorem EdgesTried.steps {ignoreRules : Bool} {k : EdgeKind} {owner : Int} {ids : List Int}
    {n : Nat} {db db' : Database} (h : EdgesTried ignoreRules k owner ids db n db') :
    Database.Steps ignoreRules [.edges k owner] db db' := by
  induction h with
  | nil => exact .refl
  | cons first _ ih => exact first.steps.trans ih

/-- Where no trigger interferes, the edges that were tried and were not there before are added,
each once, and nothing else changes. -/
theorem EdgesTried.added {ignoreRules : Bool} {k : EdgeKind} {owner : Int} {ids : List Int}
    {n : Nat} {db db' : Database} (h : EdgesTried ignoreRules k owner ids db n db')
    {x : Table Edge} (hx : db.table (.edges k) = some x) (hplain : x.triggers = []) :
    ∃ added, db' = db.setTable (.edges k) (some { x with rows := x.rows ++ added }) ∧
      added.Nodup ∧ ∀ e, e ∈ added ↔ e ∉ x.rows ∧ ∃ id ∈ ids, e = ⟨owner, id⟩ := by
  induction h generalizing x with
  | nil =>
    refine ⟨[], ?_, List.nodup_nil, by simp⟩
    simp [Database.setTable_of_table hx]
  | @cons id ids _ _ db _ _ first _ ih =>
    cases first with
    | present there mem =>
      obtain rfl := Option.some.inj (there.symm.trans hx)
      obtain ⟨added, hdb, hnodup, hmem⟩ := ih hx hplain
      refine ⟨added, hdb, hnodup, fun e => ?_⟩
      rw [hmem]
      constructor
      · rintro ⟨hnew, i, hi, he⟩
        exact ⟨hnew, i, List.mem_cons_of_mem _ hi, he⟩
      · rintro ⟨hnew, i, hi, rfl⟩
        rcases List.mem_cons.1 hi with rfl | hi
        · exact absurd mem hnew
        · exact ⟨hnew, i, hi, rfl⟩
    | leftOut there triggers =>
      obtain rfl := Option.some.inj (there.symm.trans hx)
      exact absurd hplain triggers
    | letIn there admitted =>
      obtain rfl := Option.some.inj (there.symm.trans hx)
      obtain ⟨added, hdb, hnodup, hmem⟩ := ih (Database.table_setTable_self db _ _) hplain
      -- the rest was added to a table that has the first edge already
      have hfirst : (⟨owner, id⟩ : Edge) ∉ added := fun h =>
        ((hmem _).1 h).1 (List.mem_append_right _ (List.mem_singleton_self _))
      refine ⟨⟨owner, id⟩ :: added, ?_, List.nodup_cons.2 ⟨hfirst, hnodup⟩, fun e => ?_⟩
      · rw [hdb]
        simp [Database.withRow]
      · rw [List.mem_cons, hmem]
        simp only [List.mem_append, List.mem_cons, List.not_mem_nil, or_false, not_or]
        constructor
        · rintro (rfl | ⟨⟨hnew, -⟩, i, hi, he⟩)
          · exact ⟨admitted.new, id, .inl rfl, rfl⟩
          · exact ⟨hnew, i, .inr hi, he⟩
        · rintro ⟨hnew, i, rfl | hi, he⟩
          · exact .inl he
          · by_cases hfst : e = ⟨owner, id⟩
            · exact .inl hfst
            · exact .inr ⟨⟨hnew, hfst⟩, i, hi, he⟩

namespace Call

/-! ## The transaction before its commit -/

/-- A transaction is open and sees some tables. -/
def Within (s : Call) (t : Transaction) (db : Database) : Prop :=
  s.connection.transaction = some t ∧ ∃ n, t.view = some (db, n)

/-- What is left of the connection when its transaction is undone stays the same. -/
def SameOutside (s s' : Call) : Prop := s'.connection.abandon = s.connection.abandon

variable (k : EdgeKind) (owner : Int) {s s' s'' : Call} {t : Transaction} {db : Database}

theorem SameOutside.of_connection_eq (h : s'.connection = s.connection) : s.SameOutside s' :=
  congrArg Connection.abandon h

theorem SameOutside.trans (h : s.SameOutside s') (h' : s'.SameOutside s'') : s.SameOutside s'' :=
  Eq.trans h' h

theorem SameOutside.settings (h : s.SameOutside s') :
    s'.connection.settings = s.connection.settings := by
  rw [← Connection.settings_abandon s'.connection, show s'.connection.abandon = _ from h,
    Connection.settings_abandon]

theorem SameOutside.ignoresRules (h : s.SameOutside s') :
    s'.connection.ignoresRules = s.connection.ignoresRules :=
  Connection.ignoresRules_of_settings h.settings

theorem SameOutside.committed (h : s.SameOutside s') :
    s'.connection.committed = s.connection.committed := by
  show s'.connection.abandon.committed = s.connection.abandon.committed
  rw [show s'.connection.abandon = s.connection.abandon from h]

/-- The insertion of one edge inside a transaction: an error other than a clash, or the edge was
tried. -/
theorem addOne_cases (hs : s.Within t db) (id : Int) :
    let r := s.change .edge (fun _ => false) (insertEdge s.connection.ignoresRules k ⟨owner, id⟩)
    s.SameOutside r.2 ∧
      ((∃ e, r.1 = .error e ∧ e.writeFailure ≠ .uniqueViolation) ∨
        ∃ n db' t', EdgeTried s.connection.ignoresRules k ⟨owner, id⟩ db n db' ∧
          r.2.Within t' db' ∧ t'.writing = true ∧
          (t.writing = true ∨ s.connection.readOnly = false) ∧
          ((r.1 = .ok () ∧ n = 0) ∨
            ∃ e, r.1 = .error e ∧ e.writeFailure = .uniqueViolation ∧ n = 1)) := by
  intro r
  obtain ⟨htransaction, version, hview⟩ := hs
  rcases change_cases .edge (fun _ => false)
      (insertEdge s.connection.ignoresRules k ⟨owner, id⟩) s with
    ⟨hconnection, e, he, hcancelled⟩ | ⟨hconnection, hanswer⟩
  · refine ⟨?_, .inl ⟨e, he, ?_⟩⟩
    · rcases hconnection with h | h | ⟨-, h⟩
      · exact .of_connection_eq h
      · exact (congrArg Connection.abandon h).trans rfl
      · exact (congrArg Connection.abandon h).trans (Connection.abandon_write htransaction _ _)
    · rw [StoreError.writeFailure_of_isCancellation hcancelled]
      decide
  rcases Connection.write_within_cases htransaction hview (fun _ => false)
      (insertEdge s.connection.ignoresRules k ⟨owner, id⟩) with
    ⟨hsame, cause, hcause, -, hdup⟩ | ⟨e, he, heq, hfinish, hwritable⟩
  · refine ⟨.of_connection_eq (hconnection.trans hsame), .inl ⟨.refused cause, ?_, ?_⟩⟩
    · rw [show r.1 = _ from hanswer, hcause]
      rfl
    · rw [Ne, StoreError.writeFailure_refused_eq_unique_iff]
      intro h
      obtain ⟨db', hdb'⟩ := hdup h
      simp [insertEdge_error hdb'] at h
  rw [hfinish] at hconnection
  rw [heq] at hanswer
  have houtside : s.SameOutside r.2 := by
    refine (congrArg Connection.abandon hconnection).trans ?_
    exact Connection.abandon_finishWithin t e s.connection
  have hwithin : e.endsTransaction = false → ∃ t', r.2.Within t' e.tables ∧ t'.writing = true := by
    intro hends
    rw [Connection.finishWithin, if_neg (by simp [hends])] at hconnection
    exact ⟨_, ⟨congrArg Connection.transaction hconnection, s.connection.commits, rfl⟩, rfl⟩
  refine ⟨houtside, ?_⟩
  obtain ⟨x, hx,
      ⟨htables, cause, hcause, hdup⟩ | ⟨htriggers, work, rfl⟩ | ⟨hadmitted, work, rfl⟩⟩ :=
    insertEdge_cases he
  · have hr : r.1 = .error (.refused cause) := by
      rw [show r.1 = _ from hanswer, hcause]
      rfl
    -- a clash leaves the transaction open, and the edge is in what it sees
    by_cases hunique : (StoreError.refused cause).writeFailure = .uniqueViolation
    · obtain ⟨hmem, hends⟩ := hdup ((StoreError.writeFailure_refused_eq_unique_iff cause).1 hunique)
      obtain ⟨t', ht', hwriting⟩ := hwithin hends
      rw [htables] at ht'
      exact .inr ⟨1, db, t', .present hx hmem, ht', hwriting, hwritable,
        .inr ⟨_, hr, hunique, rfl⟩⟩
    · exact .inl ⟨_, hr, hunique⟩
  · obtain ⟨t', ht', hwriting⟩ := hwithin rfl
    exact .inr ⟨0, db, t', .leftOut hx htriggers, ht', hwriting, hwritable, .inl ⟨hanswer, rfl⟩⟩
  · obtain ⟨t', ht', hwriting⟩ := hwithin rfl
    exact .inr ⟨0, _, t', .letIn hx hadmitted, ht', hwriting, hwritable, .inl ⟨hanswer, rfl⟩⟩

/-- What insertions inside a transaction come to. The tables outside it are the same; and there is
an error, or all edges of the list were tried and some more of them were passed over. -/
def Tries (ids : List Int) (s : Call) (t : Transaction) (db : Database) (skipped : Nat)
    (r : Answered Call Nat) : Prop :=
  s.SameOutside r.2 ∧
    ((∃ e, r.1 = .error e) ∨
      ∃ n db' t', r.1 = .ok (skipped + n) ∧
        EdgesTried s.connection.ignoresRules k owner ids db n db' ∧ r.2.Within t' db' ∧
        (t.writing = true ∨ ids ≠ [] → t'.writing = true) ∧
        (ids ≠ [] → t.writing = true ∨ s.connection.readOnly = false))

/-- One edge was tried before the rest. -/
theorem Tries.cons {id : Int} {rest : List Int} {n skipped : Nat} {t' : Transaction}
    {db' : Database} {r : Answered Call Nat} (houtside : s.SameOutside s')
    (hfirst : EdgeTried s.connection.ignoresRules k ⟨owner, id⟩ db n db')
    (hwriting : t'.writing = true) (hwritable : t.writing = true ∨ s.connection.readOnly = false)
    (h : Tries k owner rest s' t' db' (skipped + n) r) :
    Tries k owner (id :: rest) s t db skipped r := by
  obtain ⟨hrest, herror | ⟨m, db'', t'', hok, htried, hwithin, hstays, -⟩⟩ := h
  · exact ⟨houtside.trans hrest, .inl herror⟩
  · rw [houtside.ignoresRules] at htried
    refine ⟨houtside.trans hrest, .inr ⟨n + m, db'', t'', ?_, .cons hfirst htried, hwithin, ?_, ?_⟩⟩
    · rw [hok, Nat.add_assoc]
    · exact fun _ => hstays (.inl hwriting)
    · exact fun _ => hwritable

/-- The insertions of a transaction, by induction on the edges that are left. -/
theorem addEach_tries (ids : List Int) (skipped : Nat) (hs : s.Within t db) :
    Tries k owner ids s t db skipped (s.addEach k owner ids skipped) := by
  induction ids generalizing s skipped t db with
  | nil => exact ⟨rfl, .inr ⟨0, db, t, rfl, .nil, hs, by simp, by simp⟩⟩
  | cons id rest ih =>
    obtain ⟨houtside, hcases⟩ := addOne_cases k owner hs id
    unfold addEach
    rcases hone : s.change .edge (fun _ => false)
      (insertEdge s.connection.ignoresRules k ⟨owner, id⟩) with ⟨outcome, s'⟩
    simp only [hone] at houtside hcases
    rcases hcases with ⟨e, rfl, hne⟩ | ⟨n, db', t', htried, hwithin, hwriting, hwritable, hend⟩
    · simp only [if_neg hne]
      exact ⟨houtside, .inl ⟨_, rfl⟩⟩
    · rcases hend with ⟨rfl, rfl⟩ | ⟨e, rfl, hunique, rfl⟩
      · exact Tries.cons k owner houtside htried hwriting hwritable (ih skipped hwithin)
      · simp only [if_pos hunique]
        exact Tries.cons k owner houtside htried hwriting hwritable (ih (skipped + 1) hwithin)

/-- The same holds of everything before the commit. -/
theorem addAll_tries (ids : List Int) (hs : s.Within t db) :
    Tries k owner ids s t db 0 (s.addAll k owner ids) := by
  unfold addAll
  split
  · exact ⟨rfl, .inl ⟨_, rfl⟩⟩
  · obtain ⟨houtside, hcases⟩ :
        Tries k owner ids s t db 0 ((s.prepare .edge).addEach k owner ids 0) :=
      addEach_tries k owner ids 0 hs
    rcases heach : (s.prepare .edge).addEach k owner ids 0 with ⟨outcome, s'⟩
    simp only [heach] at houtside hcases
    rcases hcases with ⟨e, rfl⟩ | ⟨n, db', t', rfl, htried, hwithin, hwriting, hwritable⟩
    · exact ⟨houtside, .inl ⟨_, rfl⟩⟩
    · have hcheck := connection_check s'
      rcases hc : s'.check with ⟨_ | _, s''⟩
      · simp only [hc, during] at hcheck ⊢
        exact ⟨houtside.trans (.of_connection_eq hcheck), .inl ⟨_, rfl⟩⟩
      · simp only [hc, during] at hcheck ⊢
        exact ⟨houtside.trans (.of_connection_eq hcheck),
          .inr ⟨n, db', t', rfl, htried, ⟨hcheck ▸ hwithin.1, hwithin.2⟩, hwriting, hwritable⟩⟩

/-! ## Undoing and committing -/

theorem undoEdges_outside (s : Call) :
    s.SameOutside s.undoEdges ∧ s.undoEdges.connection.transaction = none := by
  have houtside := Connection.abandon_rollback s.connection
  have hnone := Connection.transaction_rollback s.connection
  unfold undoEdges
  rcases hc : s.connection.rollback with ⟨_ | _, c⟩
  · simp only [hc] at houtside hnone
    refine ⟨?_, ?_⟩
    · simpa [SameOutside] using houtside
    · simpa using hnone
  · simp only [hc] at houtside hnone
    exact ⟨houtside, hnone⟩

/-- A transaction that wrote is committed, and what it saw is published; or nothing of it stays. -/
theorem commitEdges_cases (requested skipped : Nat) (hs : s.Within t db)
    (hwriting : t.writing = true) :
    let r := s.commitEdges k requested skipped
    r.2.connection.transaction = none ∧
      (((∃ e, r.1 = .error e) ∧ s.SameOutside r.2) ∨
        (r.1 = .ok () ∧ s.connection.commitBlocked = false ∧
          r.2.connection.settings = s.connection.settings ∧ r.2.connection.committed = db)) := by
  obtain ⟨htransaction, version, hview⟩ := hs
  unfold commitEdges
  rcases Connection.commit_cases htransaction hview with
    ⟨cause, hcause, houtside⟩ | ⟨hreading, -⟩ | ⟨-, -, hfree, heq⟩
  · rcases hc : s.connection.commit with ⟨outcome, c⟩
    simp only [hc] at hcause houtside
    subst hcause
    exact ⟨rfl, .inl ⟨⟨_, rfl⟩, houtside⟩⟩
  · simp [hreading] at hwriting
  · rw [heq]
    exact ⟨rfl, .inr ⟨rfl, hfree, rfl, rfl⟩⟩

/-! ## Beginning -/

theorem insertEdges_of_abandoned {e : StoreError} (h : s.check.1 = .error e) (ids : List Int) :
    s.insertEdges k owner ids =
      (.error (.internal (Activity.start k).text (some e)), s.check.2) := by
  rw [insertEdges]
  generalize s.check = r at h ⊢
  obtain ⟨outcome, s'⟩ := r
  obtain rfl : outcome = .error e := h
  rfl

/-- Behind the first look at the token comes the transaction, on the connection as it was. -/
theorem insertEdges_of_checked (hcheck : s.check.1 = .ok ()) (ids : List Int) :
    s.insertEdges k owner ids =
      match s.connection.begin .immediate with
      | (.error cause, c) =>
        (.error (.internal (Activity.begin k).text (some (.refused cause))),
          { s.check.2 with connection := c })
      | (.ok (), c) =>
        match { s.check.2 with connection := c }.addAll k owner ids with
        | (.ok skipped, s) => s.commitEdges k ids.length skipped
        | (.error e, s) => (.error e, s.undoEdges) := by
  have hconnection := connection_check s
  rw [insertEdges]
  generalize s.check = r at hcheck hconnection ⊢
  obtain ⟨outcome, s'⟩ := r
  obtain rfl : outcome = .ok () := hcheck
  rw [← show s'.connection = s.connection from hconnection]
  rfl

theorem insertEdges_of_unbegun {cause : Refusal} {c : Connection} (hcheck : s.check.1 = .ok ())
    (hbegin : s.connection.begin .immediate = (.error cause, c)) (ids : List Int) :
    s.insertEdges k owner ids =
      (.error (.internal (Activity.begin k).text (some (.refused cause))),
        { s.check.2 with connection := c }) := by
  rw [insertEdges_of_checked k owner hcheck, hbegin]

/-- In a transaction that could be begun come the insertions, and then its commit or its undoing. -/
theorem insertEdges_of_begun {c : Connection} (hcheck : s.check.1 = .ok ())
    (hbegin : s.connection.begin .immediate = (.ok (), c)) (ids : List Int) :
    s.insertEdges k owner ids =
      match { s.check.2 with connection := c }.addAll k owner ids with
      | (.ok skipped, s) => s.commitEdges k ids.length skipped
      | (.error e, s) => (.error e, s.undoEdges) := by
  rw [insertEdges_of_checked k owner hcheck, hbegin]

/-- What an attachment comes to where no transaction was open: none is open then, and on an error
nothing has changed, and on success nothing was in the way, all edges were tried and nothing else
happened. -/
def Settles (ids : List Int) (s : Call) (r : Answered Call Unit) : Prop :=
  r.2.connection.transaction = none ∧
    (((∃ e, r.1 = .error e) ∧ s.SameOutside r.2) ∨
      (r.1 = .ok () ∧ s.connection.Commits ∧ r.2.connection.settings = s.connection.settings ∧
        ∃ n, EdgesTried s.connection.ignoresRules k owner ids s.connection.committed n
          r.2.connection.committed))

theorem insertEdges_settles {ids : List Int} (hids : ids ≠ [])
    (hs : s.connection.transaction = none) :
    Settles k owner ids s (s.insertEdges k owner ids) := by
  rcases s.check_cases with ⟨reason, -, hcheck⟩ | ⟨-, hcheck⟩
  · have hconnection := connection_check s
    rw [insertEdges_of_abandoned k owner hcheck]
    exact ⟨hconnection ▸ hs, .inl ⟨⟨_, rfl⟩, .of_connection_eq hconnection⟩⟩
  rcases Connection.begin_alone_cases hs with ⟨cause, hbegin⟩ | ⟨hreadable, hbegin⟩
  · rw [insertEdges_of_unbegun k owner hcheck hbegin]
    exact ⟨hs, .inl ⟨⟨_, rfl⟩, rfl⟩⟩
  rw [insertEdges_of_begun k owner hcheck hbegin]
  have hwithin : Within { s.check.2 with connection := s.connection.locked }
      { view := some (s.connection.committed, s.connection.commits)
        writing := !s.connection.readOnly } s.connection.committed := ⟨rfl, _, rfl⟩
  obtain ⟨houtside, hcases⟩ := addAll_tries k owner ids hwithin
  generalize addAll k owner ids { s.check.2 with connection := s.connection.locked } = r
    at houtside hcases ⊢
  obtain ⟨outcome, s₂⟩ := r
  have houtside' : s.SameOutside s₂ := houtside
  rcases hcases with ⟨e, rfl⟩ | ⟨n, db, t', rfl, htried, hwithin', hwriting, hwritable⟩
  · obtain ⟨hundone, hnone⟩ := undoEdges_outside s₂
    exact ⟨hnone, .inl ⟨⟨_, rfl⟩, houtside'.trans hundone⟩⟩
  · obtain ⟨hnone, ⟨herror, hlost⟩ | ⟨hok, hfree, hsettings, hcommitted⟩⟩ :=
      commitEdges_cases k ids.length (0 + n) hwithin' (hwriting (.inr hids))
    · exact ⟨hnone, .inl ⟨herror, houtside'.trans hlost⟩⟩
    · have hcommits : s.connection.Commits :=
        ⟨hreadable, (hwritable hids).elim (by simp) id,
          (Connection.commitBlocked_of_settings houtside'.settings).symm.trans hfree⟩
      exact ⟨hnone,
        .inr ⟨hok, hcommits, hsettings.trans houtside'.settings, n, hcommitted ▸ htried⟩⟩

/-! ## The whole call -/

theorem associate_of_ne_nil {ids : List Int} (hids : ids ≠ []) (s : Call) :
    s.associate k owner ids = observed tell .associate (fun s => s.insertEdges k owner ids) s := by
  cases ids with
  | nil => exact absurd rfl hids
  | cons => rfl

theorem associate_settles {ids : List Int} (hids : ids ≠ [])
    (hs : s.connection.transaction = none) :
    Settles k owner ids s (s.associate k owner ids) := by
  have htold := connection_tell (.called .associate) s
  have hinsert := insertEdges_settles k owner (s := s.tell (.called .associate)) hids (htold ▸ hs)
  unfold Settles SameOutside at hinsert ⊢
  rw [associate_of_ne_nil k owner hids, answer_observed, connection_observed]
  rw [htold] at hinsert
  exact hinsert

/-- An attachment inside the transaction of its caller ends before it begins. -/
theorem associate_within {ids : List Int} (hids : ids ≠ [])
    (hs : s.connection.transaction = some t) :
    let r := s.associate k owner ids
    (∃ context cause, r.1 = .error (.internal context cause)) ∧
      ∃ t', r.2.connection = { s.connection with transaction := some t' } ∧
        (∀ seen, t.view = some seen → t'.view = some seen) ∧ t'.touched = t.touched ∧
        r.2.connection.view = s.connection.view := by
  have hsame : s.connection = { s.connection with transaction := some t } := by rw [← hs]
  simp only [associate_of_ne_nil k owner hids, answer_observed, connection_observed]
  have htold := connection_tell (.called .associate) s
  generalize s.tell (.called .associate) = s₀ at htold
  unfold insertEdges
  have hcheck := (connection_check s₀).trans htold
  rcases hc : s₀.check with ⟨_ | _, s₁⟩
  · simp only [hc, during] at hcheck ⊢
    exact ⟨⟨_, _, rfl⟩, t, hcheck.trans hsame, fun _ h => h, rfl, congrArg _ hcheck⟩
  · obtain ⟨cause, t', hbegin, hview, htouched⟩ := Connection.begin_within_cases hs
    simp only [hc, during] at hcheck ⊢
    simp only [hcheck, hbegin]
    refine ⟨⟨_, _, rfl⟩, t', rfl, fun seen hseen => ?_, htouched, ?_⟩
    · rcases hview with hview | hview <;> simp [hview, hseen]
    · rw [Connection.view_of_within hs, Connection.view_of_within (t := t') rfl]
      rcases hview with hview | hview <;> simp [hview]

/-- Whatever happens, an attachment leads to the new tables by letting edges in. -/
theorem leads_associate {areas : List Area} {k : EdgeKind} {owner : Int}
    (hmem : Area.edges k owner ∈ areas) (ids : List Int) (s : Call) :
    Leads areas s (s.associate k owner ids).2 := by
  refine Leads.mono (List.cons_subset.2 ⟨hmem, List.nil_subset areas⟩) ?_
  intro hs
  by_cases hids : ids = []
  · subst hids
    exact Leads.refl s hs
  · obtain ⟨hnone, ⟨-, houtside⟩ | ⟨-, -, hsettings, n, htried⟩⟩ :=
      associate_settles k owner hids hs
    · refine ⟨hnone, houtside.settings, ?_⟩
      rw [houtside.committed]
      exact .refl
    · exact ⟨hnone, hsettings, htried.steps⟩

/-- Attaching edges is all or nothing. On an error the tables are what they were, and so is what the
connection sees of them. On success, if the join table has no triggers, every edge of the list that
was not there is in that table, once, and nothing else has changed. No transaction is left open; and
inside a transaction of the caller the call fails and leaves what is pending there alone. -/
theorem associate_all_or_nothing (k : EdgeKind) (owner : Int) (ids : List Int) (s : Call) :
    let r := s.associate k owner ids
    (∀ e, r.1 = .error e →
        r.2.connection.committed = s.connection.committed ∧
          r.2.connection.view = s.connection.view) ∧
      (∀ x, r.1 = .ok () → s.connection.committed.table (.edges k) = some x → x.triggers = [] →
        ∃ added : List Edge,
          r.2.connection.committed =
              s.connection.committed.setTable (.edges k) (some { x with rows := x.rows ++ added }) ∧
            added.Nodup ∧ ∀ e, e ∈ added ↔ e ∉ x.rows ∧ ∃ id ∈ ids, e = ⟨owner, id⟩) ∧
      (s.connection.transaction = none → r.2.connection.transaction = none) ∧
      ∀ t, s.connection.transaction = some t → ids ≠ [] →
        (∃ context cause, r.1 = .error (.internal context cause)) ∧
          ∃ t', r.2.connection = { s.connection with transaction := some t' } ∧
            (∀ seen, t.view = some seen → t'.view = some seen) ∧ t'.touched = t.touched := by
  intro r
  by_cases hids : ids = []
  · subst hids
    refine ⟨fun e he => by simp [r, associate] at he, fun x _ hx _ => ⟨[], ?_, ?_⟩, id, ?_⟩
    · simp [r, associate, Database.setTable_of_table hx]
    · exact ⟨List.nodup_nil, by simp⟩
    · exact fun _ _ h => absurd rfl h
  cases hs : s.connection.transaction with
  | none =>
    obtain ⟨hnone, hcases⟩ := associate_settles k owner hids hs
    refine ⟨fun e he => ?_, fun x hok hx hplain => ?_, fun _ => hnone, by simp⟩
    · rcases hcases with ⟨-, houtside⟩ | ⟨hok, -, -⟩
      · refine ⟨houtside.committed, ?_⟩
        rw [Connection.view_of_alone hnone, Connection.view_of_alone hs]
        exact houtside.committed
      · simp [he, r] at hok
    · rcases hcases with ⟨⟨e, he⟩, -⟩ | ⟨-, -, -, n, htried⟩
      · simp [r, he] at hok
      · exact htried.added hx hplain
  | some t =>
    obtain ⟨hinternal, t', hconnection, hview, htouched, hsees⟩ :=
      associate_within k owner hids hs
    refine ⟨fun e he => ⟨by rw [hconnection], hsees⟩, ?_, by simp, ?_⟩
    · intro x hok
      obtain ⟨context, cause, hcause⟩ := hinternal
      simp [r, hcause] at hok
    · intro u hu _
      obtain rfl := Option.some.inj hu
      exact ⟨hinternal, t', hconnection, hview, htouched⟩

/-- On the small store one edge is new and is attached; and if the token fires as it is written, the
tables stay as they are. -/
theorem associate_all_or_nothing_sample :
    (∃ added : List Edge,
      (sample.associate .vacancySkill 1 [2, 1, 2]).2.connection.committed =
          Database.sample.setTable (.edges .vacancySkill)
            (some { rows := [⟨1, 1⟩] ++ added, indexes := ["vacancy_skill_skill_idx"] }) ∧
        added.Nodup ∧ ∀ e, e ∈ added ↔ e ∉ [⟨1, 1⟩] ∧ ∃ id ∈ [2, 1, 2], e = ⟨1, id⟩) ∧
      ∃ e, ({ sample with signal := { alarms := [⟨.write, 1, .cancelled⟩] } }.associate
          .vacancySkill 1 [2, 1, 2]).1 = .error e ∧
        ({ sample with signal := { alarms := [⟨.write, 1, .cancelled⟩] } }.associate
          .vacancySkill 1 [2, 1, 2]).2.connection.committed = Database.sample := by
  have herror : ∃ e, ({ sample with signal := { alarms := [⟨.write, 1, .cancelled⟩] } }.associate
      .vacancySkill 1 [2, 1, 2]).1 = .error e := ⟨_, rfl⟩
  refine ⟨(associate_all_or_nothing .vacancySkill 1 [2, 1, 2] sample).2.1 _ (by decide) rfl rfl, ?_⟩
  obtain ⟨e, he⟩ := herror
  exact ⟨e, he, ((associate_all_or_nothing .vacancySkill 1 [2, 1, 2] _).1 e he).1⟩

end Call

end JobBoard
