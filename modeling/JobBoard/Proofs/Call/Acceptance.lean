import JobBoard.Proofs.Call.Telling
import JobBoard.Proofs.Call.Undisturbed
import JobBoard.Proofs.Store.Conformance

/-!
# Which lists of edges are accepted

In tables that conform to the schema an edge is fit to stand in its table or not, whatever else
stands there (`unfit?`). So a list is accepted exactly if all of its edges are fit, and otherwise
the first that is not decides the error; edges that are there already, or come twice, make no
difference except to the number that is remarked. The main theorem is `associate_accepts_fit`.
-/

set_option autoImplicit false

namespace JobBoard

open Observe Store

/-! ## Fit edges -/

/-- Why an edge cannot stand in its table, whatever else stands there. -/
def unfit? (k : EdgeKind) (joins : Edge → Bool) (e : Edge) : Option Refusal :=
  (forbidden? false k e).or (if joins e then none else some .danglingReference)

/-- The first item of a list with a property is the first for which something is found, if those
are the items for which something is. -/
theorem findSome?_of_find? {α β : Type} {p : α → Bool} {f : α → Option β} {xs : List α} {x : α}
    (hf : ∀ x, f x = none ↔ p x = false) (h : xs.find? p = some x) :
    xs.findSome? f = f x := by
  obtain ⟨hx, before, after, rfl, hbefore⟩ := List.find?_eq_some_iff_append.1 h
  have hnone : before.findSome? f = none := by
    rw [List.findSome?_eq_none_iff]
    intro a ha
    exact (hf a).2 (by simpa using hbefore a ha)
  rw [List.findSome?_append, hnone, Option.none_or, List.findSome?_cons]
  cases hfound : f x with
  | some b => rfl
  | none =>
    rw [(hf x).1 hfound] at hx
    exact nomatch hx

section Fit

variable {k : EdgeKind} {joins : Edge → Bool} {owner : Int} {y y' : Table Edge}

theorem exists_checkFailed_of_forbidden? {e : Edge} {cause : Refusal}
    (h : forbidden? false k e = some cause) : ∃ rule, cause = .checkFailed rule := by
  obtain ⟨rule, -, rfl⟩ := Option.map_eq_some_iff.1 h
  exact ⟨_, rfl⟩

theorem unfit?_eq_none_iff (e : Edge) :
    unfit? k joins e = none ↔ (0 < e.owner ∧ 0 < e.entry) ∧ joins e = true := by
  rw [unfit?, Option.or_eq_none_iff, forbidden?_eq_none_iff]
  simp

theorem unfit?_eq_some_cases {e : Edge} {cause : Refusal}
    (h : unfit? k joins e = some cause) :
    (¬(0 < e.owner ∧ 0 < e.entry) ∧ ∃ rule, cause = .checkFailed rule) ∨
      ((0 < e.owner ∧ 0 < e.entry) ∧ cause = .danglingReference) := by
  rw [unfit?, Option.or_eq_some_iff] at h
  rcases h with h | ⟨hallowed, h⟩
  · refine .inl ⟨?_, exists_checkFailed_of_forbidden? h⟩
    intro hpositive
    rw [forbidden?_eq_none_iff.2 fun _ => hpositive] at h
    exact nomatch h
  · refine .inr ⟨forbidden?_eq_none_iff.1 hallowed rfl, ?_⟩
    cases hjoins : joins e with
    | true => simp [hjoins] at h
    | false => simpa [hjoins, eq_comm] using h

/-- Among edges that are fit, one more is let in if it is fit too, and changes nothing if it is
there. -/
theorem link_of_fit (hy : ∀ e ∈ y.rows, unfit? k joins e = none) (e : Edge) :
    link false k joins e y =
      match unfit? k joins e with
      | some cause => .error cause
      | none => .ok (if e ∈ y.rows then y else { y with rows := y.rows ++ [e] }) := by
  by_cases hmem : e ∈ y.rows
  · have hfit := hy e hmem
    rw [link_of_mem hmem fun _ => ((unfit?_eq_none_iff e).1 hfit).1, hfit]
    simp only [if_pos hmem]
  · rw [link, unfit?]
    cases forbidden? false k e with
    | some cause => rfl
    | none => cases joins e <;> simp [hmem]

/-- An edge that was let in is there, and all edges are fit as before. -/
theorem fit_of_link (hy : ∀ e ∈ y.rows, unfit? k joins e = none) {e : Edge}
    (h : link false k joins e y = .ok y') :
    e ∈ y'.rows ∧ y.rows ⊆ y'.rows ∧ ∀ e ∈ y'.rows, unfit? k joins e = none := by
  rw [link_of_fit hy] at h
  cases hfit : unfit? k joins e with
  | some cause => simp [hfit] at h
  | none =>
    simp only [hfit] at h
    obtain rfl := Except.ok.inj h
    by_cases hmem : e ∈ y.rows
    · rw [if_pos hmem]
      exact ⟨hmem, fun _ h => h, hy⟩
    · rw [if_neg hmem]
      refine ⟨by simp, by simp, ?_⟩
      intro e' he'
      rcases List.mem_append.1 he' with he' | he'
      · exact hy e' he'
      · rwa [List.mem_singleton.1 he']

theorem fit_of_linkAll {ids : List Int} (hy : ∀ e ∈ y.rows, unfit? k joins e = none)
    (h : linkAll false k joins owner ids y = .ok y') :
    (∀ id ∈ ids, ⟨owner, id⟩ ∈ y'.rows) ∧ y.rows ⊆ y'.rows ∧
      ∀ e ∈ y'.rows, unfit? k joins e = none := by
  induction ids generalizing y with
  | nil =>
    obtain rfl := Except.ok.inj h
    exact ⟨by simp, fun _ h => h, hy⟩
  | cons id rest ih =>
    rw [linkAll] at h
    cases hfirst : link false k joins ⟨owner, id⟩ y with
    | error cause => simp [hfirst] at h
    | ok y₁ =>
      simp only [hfirst] at h
      obtain ⟨hmem, hsub, hfit⟩ := fit_of_link hy hfirst
      obtain ⟨hall, hsub', hfit'⟩ := ih hfit h
      refine ⟨?_, List.Subset.trans hsub hsub', hfit'⟩
      intro i hi
      rcases List.mem_cons.1 hi with rfl | hi
      · exact hsub' hmem
      · exact hall i hi

/-- A fit edge is let in, unless it is there. -/
theorem link_of_unfit? (ignoreRules : Bool) {e : Edge} (he : unfit? k joins e = none)
    (hy : y.rows.Nodup) :
    ∃ y', link ignoreRules k joins e y = .ok y' ∧ y'.rows.Nodup ∧
      ∀ e', e' ∈ y'.rows ↔ e' ∈ y.rows ∨ e' = e := by
  rw [unfit?_eq_none_iff] at he
  rw [link, forbidden?_eq_none_iff.2 fun _ => he.1]
  by_cases hmem : e ∈ y.rows
  · exact ⟨y, if_pos hmem, hy, fun e' => ⟨.inl, fun h => h.elim id fun heq => heq ▸ hmem⟩⟩
  · refine ⟨{ y with rows := y.rows ++ [e] }, ?_, ?_, ?_⟩
    · simp only [if_neg hmem, he.2, if_true]
    · exact List.concat_eq_append ▸ hy.concat hmem
    · simp

/-- Fit edges are all let in. -/
theorem linkAll_of_unfit? (ignoreRules : Bool) {ids : List Int}
    (hids : ∀ id ∈ ids, unfit? k joins ⟨owner, id⟩ = none) (hy : y.rows.Nodup) :
    ∃ y', linkAll ignoreRules k joins owner ids y = .ok y' ∧ y'.rows.Nodup ∧
      ∀ e, e ∈ y'.rows ↔ e ∈ y.rows ∨ ∃ id ∈ ids, e = ⟨owner, id⟩ := by
  induction ids generalizing y with
  | nil => exact ⟨y, rfl, hy, by simp⟩
  | cons id rest ih =>
    rw [List.forall_mem_cons] at hids
    obtain ⟨y₁, hlink, hy₁, hrows₁⟩ := link_of_unfit? ignoreRules hids.1 hy
    obtain ⟨y', hlinkAll, hy', hrows⟩ := ih hids.2 hy₁
    refine ⟨y', by rw [linkAll, hlink]; exact hlinkAll, hy', fun e => ?_⟩
    simp only [hrows, hrows₁, List.mem_cons, exists_eq_or_imp, or_assoc]

/-- The first edge of the list that is not fit decides whether it is accepted, and why not. -/
theorem linkAll_verdict (owner : Int) (hy : ∀ e ∈ y.rows, unfit? k joins e = none)
    (ids : List Int) :
    match ids.findSome? fun id => unfit? k joins ⟨owner, id⟩ with
    | some cause => linkAll false k joins owner ids y = .error cause
    | none => ∃ y', linkAll false k joins owner ids y = .ok y' := by
  induction ids generalizing y with
  | nil => exact ⟨y, rfl⟩
  | cons id rest ih =>
    have hfirst := link_of_fit hy ⟨owner, id⟩
    rw [List.findSome?_cons, linkAll]
    cases hfit : unfit? k joins ⟨owner, id⟩ with
    | some cause =>
      simp only [hfit] at hfirst
      simp only [hfirst]
    | none =>
      simp only [hfit] at hfirst
      simp only [hfirst]
      exact ih (fit_of_link hy hfirst).2.2

theorem linkAll_append (before rest : List Int) (y : Table Edge) :
    linkAll false k joins owner (before ++ rest) y =
      (linkAll false k joins owner before y).bind (linkAll false k joins owner rest) := by
  induction before generalizing y with
  | nil => rfl
  | cons id before ih =>
    rw [List.cons_append, linkAll, linkAll]
    cases link false k joins ⟨owner, id⟩ y with
    | error cause => rfl
    | ok y₁ => exact ih y₁

/-- An edge that is there, or comes earlier in the list, might as well be left out of it. -/
theorem linkAll_of_idle (hy : ∀ e ∈ y.rows, unfit? k joins e = none) {id : Int}
    {before : List Int} (after : List Int) (hidle : ⟨owner, id⟩ ∈ y.rows ∨ id ∈ before) :
    linkAll false k joins owner (before ++ id :: after) y =
      linkAll false k joins owner (before ++ after) y := by
  rw [linkAll_append, linkAll_append]
  cases hbefore : linkAll false k joins owner before y with
  | error cause => rfl
  | ok y₁ =>
    obtain ⟨hall, hsub, hfit⟩ := fit_of_linkAll hy hbefore
    have hmem : ⟨owner, id⟩ ∈ y₁.rows := hidle.elim (fun h => hsub h) (hall id)
    show linkAll false k joins owner (id :: after) y₁ = linkAll false k joins owner after y₁
    rw [linkAll, link_of_mem hmem fun _ => ((unfit?_eq_none_iff _).1 (hfit _ hmem)).1]

end Fit

/-! ## Conforming tables -/

namespace Store.Database

variable {db : Database} {k : EdgeKind}

/-- A row under a positive id is there. -/
def holds (db : Database) (t : TableName) (id : Int) : Bool := decide (0 < id) && db.hasId t id

theorem unfit?_eq_none_iff_holds (db : Database) (k : EdgeKind) (owner id : Int) :
    unfit? k (db.joins k) ⟨owner, id⟩ = none ↔
      (db.holds (.ofOwner k.owner) owner && db.holds (.dictionary k.dictionary) id) = true := by
  rw [unfit?_eq_none_iff]
  simp only [joins, holds, Bool.and_eq_true, decide_eq_true_eq]
  constructor
  · rintro ⟨⟨howner, hid⟩, hasOwner, hasEntry⟩
    exact ⟨⟨howner, hasOwner⟩, hid, hasEntry⟩
  · rintro ⟨⟨howner, hasOwner⟩, hid, hasEntry⟩
    exact ⟨⟨howner, hid⟩, hasOwner, hasEntry⟩

/-- The edges that are there are fit. -/
theorem Conforms.fit (h : db.Conforms) (hplain : db.Plain) {y : Table Edge}
    (hy : db.table (.edges k) = some y) : ∀ e ∈ y.rows, unfit? k (db.joins k) e = none := by
  intro e he
  obtain ⟨y', hy', hconforms⟩ := h (.edges k)
  obtain rfl : y = y' := Option.some.inj (hy.symm.trans hy')
  have hstrict := (hplain.of_table hy).strict
  have howner := hconforms.rules (positiveRule k.ownerColumn Edge.owner)
    (by simp [relation, edgeRelation, hstrict]) e he
  have hentry := hconforms.rules (positiveRule k.entryColumn Edge.entry)
    (by simp [relation, edgeRelation, hstrict]) e he
  have hjoined : db.joins k e = true := by
    rw [joins, Bool.and_eq_true]
    constructor
    · exact hconforms.references
        ⟨k.ownerColumn, .ofOwner k.owner, fun e => some e.owner, true, false⟩
        (by simp [relation, edgeRelation, hstrict]) e he _ rfl
    · exact hconforms.references
        ⟨k.entryColumn, .dictionary k.dictionary, fun e => some e.entry, false, false⟩
        (by simp [relation, edgeRelation, hstrict]) e he _ rfl
  exact (unfit?_eq_none_iff e).2
    ⟨⟨by simpa [positiveRule] using howner, by simpa [positiveRule] using hentry⟩, hjoined⟩

end Store.Database

/-! ## Edges that are passed over -/

/-- Without triggers every edge that was tried is counted, or stands in the table. -/
theorem EdgesTried.length_rows {ignoreRules : Bool} {k : EdgeKind} {owner : Int} {ids : List Int}
    {n : Nat} {db db' : Database} (h : EdgesTried ignoreRules k owner ids db n db')
    {x : Table Edge} (hx : db.table (.edges k) = some x) (hplain : x.triggers = []) :
    n + (db'.rows (.edges k)).length = ids.length + (db.rows (.edges k)).length := by
  induction h generalizing x with
  | nil => rfl
  | cons first _ ih =>
    rw [List.length_cons]
    cases first with
    | present there mem =>
      have hrest := ih hx hplain
      omega
    | leftOut there triggers =>
      obtain rfl := Option.some.inj (there.symm.trans hx)
      exact absurd hplain triggers
    | letIn there admitted =>
      obtain rfl := Option.some.inj (there.symm.trans hx)
      have hrest := ih (Database.table_setTable_self _ _ _) hplain
      rw [Database.withRow, Database.rows_setTable_self, List.length_append,
        List.length_singleton, ← Database.rows_of_table hx] at hrest
      omega

namespace Call

variable {k : EdgeKind} {owner : Int} {s : Call} {ids : List Int}

theorem notes_commitEdges_of_ok {requested skipped : Nat}
    (h : (s.commitEdges k requested skipped).1 = .ok ()) :
    (s.commitEdges k requested skipped).2.notes =
      s.notes ++ [.edgesAdded k requested skipped] := by
  rw [commitEdges] at h ⊢
  generalize s.connection.commit = r at h ⊢
  rcases r with ⟨cause | u, c⟩
  · cases h
  · rfl

/-- What is remarked about edges that were added. -/
theorem notes_insertEdges (hids : ids ≠ []) (hs : s.connection.transaction = none)
    (hok : (s.insertEdges k owner ids).1 = .ok ()) :
    let r := s.insertEdges k owner ids
    ∃ n, EdgesTried s.connection.ignoresRules k owner ids s.connection.committed n
        r.2.connection.committed ∧
      r.2.notes = s.notes ++ [.edgesAdded k ids.length n] := by
  rcases s.check_cases with ⟨reason, -, hcheck⟩ | ⟨-, hcheck⟩
  · rw [insertEdges_of_abandoned k owner hcheck] at hok
    exact nomatch hok
  rcases Connection.begin_alone_cases hs with ⟨cause, hbegin⟩ | ⟨-, hbegin⟩
  · rw [insertEdges_of_unbegun k owner hcheck hbegin] at hok
    exact nomatch hok
  rw [insertEdges_of_begun k owner hcheck hbegin] at hok ⊢
  have hwithin : Within { s.check.2 with connection := s.connection.locked }
      { view := some (s.connection.committed, s.connection.commits)
        writing := !s.connection.readOnly } s.connection.committed := ⟨rfl, _, rfl⟩
  obtain ⟨-, hcases⟩ := addAll_tries k owner ids hwithin
  have hnotes := notes_addAll k owner ids { s.check.2 with connection := s.connection.locked }
  generalize addAll k owner ids { s.check.2 with connection := s.connection.locked } = r
    at hok hcases hnotes ⊢
  obtain ⟨outcome, s'⟩ := r
  rcases hcases with ⟨e, rfl⟩ | ⟨n, db, t, rfl, htried, hwithin', hwriting, -⟩
  · exact nomatch hok
  obtain ⟨-, ⟨⟨e, he⟩, -⟩ | ⟨-, -, -, hcommitted⟩⟩ :=
    commitEdges_cases k ids.length (0 + n) hwithin' (hwriting (.inr hids))
  · exact nomatch hok.symm.trans he
  refine ⟨n, hcommitted ▸ htried, ?_⟩
  have hadded := notes_commitEdges_of_ok hok
  rw [show s'.notes = s.notes from hnotes.trans (notes_check s)] at hadded
  simp only [Nat.zero_add] at hadded ⊢
  exact hadded

theorem notes_associate (hids : ids ≠ []) (hs : s.connection.transaction = none)
    (hok : (s.associate k owner ids).1 = .ok ()) :
    let r := s.associate k owner ids
    ∃ n, EdgesTried s.connection.ignoresRules k owner ids s.connection.committed n
        r.2.connection.committed ∧
      r.2.notes = s.notes ++ [.event (.called .associate), .edgesAdded k ids.length n] := by
  have htold := connection_tell (.called .associate) s
  have hnoted : (s.tell (.called .associate)).notes = s.notes ++ [.event (.called .associate)] :=
    rfl
  rw [associate_of_ne_nil k owner hids] at hok ⊢
  rw [answer_observed] at hok
  obtain ⟨n, htried, hnotes⟩ := notes_insertEdges hids (htold ▸ hs) hok
  rw [htold] at htried
  refine ⟨n, ?_, ?_⟩
  · rw [connection_observed]
    exact htried
  · rw [hnoted, List.append_assoc, List.singleton_append] at hnotes
    rw [← hnotes, observed]
    generalize (s.tell (.called .associate)).insertEdges k owner ids = r at hok
    obtain ⟨outcome, s'⟩ := r
    obtain rfl : outcome = .ok () := hok
    rfl

/-! ## The whole call -/

/-- The answer of an attachment: the first edge that is not fit decides. -/
theorem answer_associate (owner : Int) (hs : s.Undisturbed) (hdb : s.connection.committed.Conforms)
    (hrules : s.connection.ignoresRules = false) (ids : List Int) :
    (s.associate k owner ids).1 =
      match ids.findSome? fun id => unfit? k (s.connection.committed.joins k) ⟨owner, id⟩ with
      | some cause => .error (.ofFailedWrite (Activity.add k).text (.refused cause))
      | none => .ok () := by
  obtain ⟨y, hy, -⟩ := hs.plain (.edges k)
  have hcomes := (comes_associate hs hy owner ids).1
  have hverdict := linkAll_verdict owner (hdb.fit hs.plain hy) ids
  rw [hrules] at hcomes
  rw [hcomes]
  cases hfirst : ids.findSome? fun id =>
      unfit? k (s.connection.committed.joins k) ⟨owner, id⟩ with
  | some cause =>
    simp only [hfirst] at hverdict
    rw [hverdict]
    rfl
  | none =>
    simp only [hfirst] at hverdict
    obtain ⟨y', hlinked⟩ := hverdict
    rw [hlinked]
    rfl

/-- Where the rules of the tables are in force, an attachment is accepted exactly if it is one of
nothing, or the owner and all entries are there under positive ids. Otherwise the first entry that
is not, or the first of the list if it is the owner that is not, decides the error: a bad request if
one of the two ids is not positive, and else an internal error about a reference to nothing. Edges
that are there, or come twice, change neither the outcome nor the tables. What is remarked as passed
over is what the list is longer than the join table has grown. -/
theorem associate_accepts_fit (k : EdgeKind) (owner : Int) (ids : List Int) (s : Call)
    (hs : s.Undisturbed) (hdb : s.connection.committed.Conforms)
    (hrules : s.connection.ignoresRules = false) :
    let db := s.connection.committed
    let r := s.associate k owner ids
    let fit (id : Int) : Bool :=
      db.holds (.ofOwner k.owner) owner && db.holds (.dictionary k.dictionary) id
    (r.1 = .ok () ↔ ids = [] ∨ db.holds (.ofOwner k.owner) owner = true ∧
        ∀ id ∈ ids, db.holds (.dictionary k.dictionary) id = true) ∧
      (∀ x, ids.find? (fun id => !fit id) = some x →
        ∃ e, r.1 = .error e ∧
          (owner ≤ 0 ∨ x ≤ 0 → e.kind = .badRequest) ∧
          (0 < owner → 0 < x → e.kind = .internal ∧
            e.source? = some (.refused .danglingReference) ∧ e.writeFailure? = some .other)) ∧
      (∀ before id after, ids = before ++ id :: after →
        ⟨owner, id⟩ ∈ db.rows (.edges k) ∨ id ∈ before →
        (s.associate k owner (before ++ after)).1 = r.1 ∧
          (s.associate k owner (before ++ after)).2.connection.committed =
            r.2.connection.committed) ∧
      (r.1 = .ok () → ids ≠ [] →
        ∃ skipped, r.2.notes =
            s.notes ++ [.event (.called .associate), .edgesAdded k ids.length skipped] ∧
          skipped + (r.2.connection.committed.rows (.edges k)).length =
            ids.length + (db.rows (.edges k)).length) := by
  intro db r fit
  obtain ⟨y, hy, -⟩ := hs.plain (.edges k)
  have hfit : ∀ id, unfit? k (db.joins k) ⟨owner, id⟩ = none ↔ fit id = true :=
    db.unfit?_eq_none_iff_holds k owner
  have hanswer := answer_associate (k := k) owner hs hdb hrules
  refine ⟨?_, ?_, ?_, ?_⟩
  · have hok : r.1 = .ok () ↔ ∀ id ∈ ids, fit id = true := by
      show (s.associate k owner ids).1 = _ ↔ _
      simp only [← hfit]
      rw [hanswer ids, ← List.findSome?_eq_none_iff]
      generalize ids.findSome? _ = first
      cases first <;> simp
    rw [hok]
    simp only [fit, Bool.and_eq_true]
    constructor
    · intro hall
      by_cases hids : ids = []
      · exact .inl hids
      · obtain ⟨id, hid⟩ := List.exists_mem_of_ne_nil ids hids
        exact .inr ⟨(hall id hid).1, fun id hid => (hall id hid).2⟩
    · rintro (rfl | ⟨howner, hall⟩)
      · exact nofun
      · exact fun id hid => ⟨howner, hall id hid⟩
  · intro x hx
    have hfirst := findSome?_of_find? (f := fun id => unfit? k (db.joins k) ⟨owner, id⟩)
      (fun id => by rw [hfit, Bool.not_eq_false']) hx
    have hunfit : unfit? k (db.joins k) ⟨owner, x⟩ ≠ none := by
      rw [Ne, hfit]
      simpa using List.find?_some hx
    obtain ⟨cause, hcause⟩ := Option.ne_none_iff_exists'.1 hunfit
    refine ⟨.ofFailedWrite (Activity.add k).text (.refused cause), ?_, ?_, ?_⟩
    · show (s.associate k owner ids).1 = _
      rw [hanswer ids, hfirst, hcause]
    · intro hbad
      rcases unfit?_eq_some_cases hcause with ⟨-, rule, rfl⟩ | ⟨⟨howner, hx⟩, -⟩
      · rfl
      · exact absurd hbad (by simp only at howner hx; omega)
    · intro howner hx
      rcases unfit?_eq_some_cases hcause with ⟨hbad, -⟩ | ⟨-, rfl⟩
      · exact absurd ⟨howner, hx⟩ hbad
      · exact ⟨rfl, rfl, rfl⟩
  · rintro before id after rfl hidle
    have hcomes := comes_associate hs hy owner (before ++ id :: after)
    have hcomes' := comes_associate hs hy owner (before ++ after)
    rw [Database.rows_of_table hy] at hidle
    rw [hrules, linkAll_of_idle (hdb.fit hs.plain hy) after hidle] at hcomes
    rw [hrules] at hcomes'
    exact ⟨hcomes'.1.trans hcomes.1.symm, hcomes'.2.tables.trans hcomes.2.tables.symm⟩
  · intro hok hids
    obtain ⟨skipped, htried, hnotes⟩ := notes_associate hids hs.free.idle hok
    exact ⟨skipped, hnotes, htried.length_rows hy (hs.plain.of_table hy).noTriggers⟩

/-- On the small store the first edge is passed over, the second is new, and the third is passed
over again; one to a skill that is not there fails before one to no skill at all. -/
theorem associate_accepts_fit_sample :
    (∃ skipped, (sample.associate .vacancySkill 1 [1, 2, 2]).2.notes =
        [.event (.called .associate), .edgesAdded .vacancySkill 3 skipped] ∧
      skipped + ((sample.associate .vacancySkill 1 [1, 2, 2]).2.connection.committed.rows
        (.edges .vacancySkill)).length = 4) ∧
    (∃ e, (sample.associate .vacancySkill 1 [2, 7, 0]).1 = .error e ∧ e.kind = .internal ∧
      e.writeFailure? = some .other) ∧
    ∃ e, (sample.associate .vacancySkill 1 [2, 0, 7]).1 = .error e ∧ e.kind = .badRequest := by
  have h := fun ids => associate_accepts_fit .vacancySkill 1 ids sample sample_undisturbed
    Database.sample_conforms rfl
  have hfit : (sample.associate .vacancySkill 1 [1, 2, 2]).1 = .ok () :=
    (h [1, 2, 2]).1.2 (.inr ⟨by decide, by decide⟩)
  obtain ⟨e, he, -, hinternal⟩ := (h [2, 7, 0]).2.1 7 (by decide)
  obtain ⟨e', he', hbad, -⟩ := (h [2, 0, 7]).2.1 0 (by decide)
  refine ⟨(h [1, 2, 2]).2.2.2 hfit (by decide), ⟨e, he, ?_⟩, e', he', hbad (by decide)⟩
  obtain ⟨hkind, -, hother⟩ := hinternal (by decide) (by decide)
  exact ⟨hkind, hother⟩

end Call

end JobBoard
