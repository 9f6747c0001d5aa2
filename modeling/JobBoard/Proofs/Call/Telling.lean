import JobBoard.Call.NamedEdges
import JobBoard.Call.Search
import JobBoard.Proofs.Call.Conversation
import JobBoard.Proofs.Call.Guard

/-!
# What calls tell

A call tells its events by notes that it adds at the end of those it has. No statement of the store
adds any. An operation is announced first, and its error is reported last (`mirrors_observed`). In
between only two things are ever told: that a name is looked up again, and that a transaction could
not be undone (`mirrors_resolve`, `mirrors_associate`).
-/

set_option autoImplicit false

namespace JobBoard

open Observe Store

/-- The error of an outcome. -/
def raised? {α : Type} : Except BoardError α → Option BoardError
  | .ok _ => none
  | .error e => some e

/-- The report of an error, if there was one. -/
def report (op : Operation) (e : Option BoardError) : List Event := e.toList.map (.failed op)

/-- The error that an event reports. -/
def Observe.Event.failure? : Event → Option BoardError
  | .failed _ e => some e
  | _ => none

/-- An error is reported once, as the last of the events; without one none of them is a report. -/
structure ReportedOnce (e : Option BoardError) (es : List Event) : Prop where
  once : es.filterMap Event.failure? = e.toList
  last : ∀ e', e = some e' → ∃ op, es.getLast? = some (.failed op e')

theorem ReportedOnce.nil : ReportedOnce none [] := ⟨rfl, nofun⟩

/-- Events without a report before the others make no difference. -/
theorem ReportedOnce.append {e : Option BoardError} {es es' : List Event}
    (h' : ReportedOnce e es') (h : ReportedOnce none es) : ReportedOnce e (es ++ es') := by
  constructor
  · rw [List.filterMap_append, h.once, h'.once]
    rfl
  · intro e' he
    obtain ⟨op, hlast⟩ := h'.last e' he
    exact ⟨op, by rw [List.getLast?_append, hlast, Option.some_or]⟩

theorem reportedOnce_report (op : Operation) (e : Option BoardError) :
    ReportedOnce e (report op e) := by
  cases e with
  | none => exact .nil
  | some e => exact ⟨rfl, fun e' he => ⟨op, congrArg some (congrArg _ (Option.some.inj he))⟩⟩

namespace Call

variable {α : Type} {s s' s'' : Call} {es es' : List Event}

/-- The events that a call tells between two of its states. -/
def emitted (s s' : Call) : List Event := events (s'.notes.drop s.notes.length)

/-- A call adds notes of these events to those it has. -/
def Tells (s : Call) (es : List Event) (s' : Call) : Prop :=
  ∃ notes, s'.notes = s.notes ++ notes ∧ events notes = es

theorem Tells.of_notes_eq (h : s'.notes = s.notes) : Tells s [] s' :=
  ⟨[], h.trans (List.append_nil _).symm, rfl⟩

theorem Tells.refl (s : Call) : Tells s [] s := .of_notes_eq rfl

theorem Tells.trans (h : Tells s es s') (h' : Tells s' es' s'') : Tells s (es ++ es') s'' := by
  obtain ⟨notes, hnotes, rfl⟩ := h
  obtain ⟨notes', hnotes', rfl⟩ := h'
  refine ⟨notes ++ notes', ?_, ?_⟩
  · rw [hnotes', hnotes, List.append_assoc]
  · exact List.filterMap_append

theorem Tells.keeps (h : Tells s es s') : s.notes <+: s'.notes := by
  obtain ⟨notes, hnotes, -⟩ := h
  exact ⟨notes, hnotes.symm⟩

theorem Tells.emitted_eq (h : Tells s es s') : emitted s s' = es := by
  obtain ⟨notes, hnotes, rfl⟩ := h
  rw [emitted, hnotes, List.drop_left]

theorem tells_tell (e : Event) (s : Call) : Tells s [e] (s.tell e) := by
  refine ⟨[.event e], ?_, rfl⟩
  cases e <;> rfl

/-! ## Statements -/

theorem notes_check (s : Call) : s.check.2.notes = s.notes := by
  rw [check]
  simp only
  split <;> rfl

/-- A statement under the token adds a note only if it does so without it. -/
theorem notes_guarded {statement : Call → Stored Call α}
    (h : ∀ s : Call, (statement s).2.notes = s.notes) (s : Call) :
    (guarded statement s).2.notes = s.notes := by
  have hcheck := s.notes_check
  unfold guarded
  generalize s.check = r at hcheck ⊢
  rcases r with ⟨e | u, s₁⟩
  · exact hcheck
  · exact (h { s₁ with polled := some s₁.signal }).trans hcheck

theorem notes_ask (q : Query α) (s : Call) : (s.ask q).2.notes = s.notes := by
  refine notes_guarded (fun s => ?_) s
  split
  · rfl
  · split <;> rfl

theorem notes_change (p : Prepared) (handsBack : α → Bool) (u : Update α) (s : Call) :
    (s.change p handsBack u).2.notes = s.notes := by
  refine notes_guarded (fun s => ?_) s
  dsimp only
  split
  · rfl
  · unfold perform
    dsimp only
    split <;> rfl

theorem notes_insertName (d : Dictionary) (name : String) (s : Call) :
    (s.insertName d name).2.notes = s.notes := by
  have hchange := notes_change (.entry d) Option.isSome
    (insertEntry s.connection.ignoresRules d name) s
  rw [insertName]
  generalize s.change (.entry d) Option.isSome (insertEntry s.connection.ignoresRules d name) = r
    at hchange ⊢
  rcases r with ⟨e | _ | id, s'⟩ <;> exact hchange

/-! ## Operations -/

/-- An operation tells that it was called, then some events, and at last its error. -/
def Mirrors (op : Operation) (between : List Event) (s : Call) (r : Answered Call α) : Prop :=
  Tells s (.called op :: (between ++ report op (raised? r.1))) r.2

theorem mirrors_observed {op : Operation} {run : Call → Answered Call α} {between : List Event}
    (h : Tells (s.tell (.called op)) between (run (s.tell (.called op))).2) :
    Mirrors op between s (observed tell op run s) := by
  have hrun := (tells_tell (.called op) s).trans h
  unfold observed
  generalize run (s.tell (.called op)) = r at hrun ⊢
  rcases r with ⟨e | a, s'⟩
  · have hall := hrun.trans (tells_tell (.failed op e) s')
    rw [List.append_assoc] at hall
    exact hall
  · show Tells s (.called op :: (between ++ [])) s'
    rw [List.append_nil]
    exact hrun

/-- An operation that asks the store once tells nothing in between. -/
theorem mirrors_ask {β : Type} {op : Operation} {q : Query β} {run : Call → Answered Call α}
    (h : ∀ s : Call, (run s).2.notes = (s.ask q).2.notes) (s : Call) :
    Mirrors op [] s (observed tell op run s) :=
  mirrors_observed (.of_notes_eq ((h _).trans (notes_ask q _)))

theorem mirrors_during_ask (op : Operation) (a : Activity) (q : Query α) (s : Call) :
    Mirrors op [] s (observed tell op (fun s => during a (s.ask q)) s) :=
  mirrors_ask (fun s => congrArg notes (state_during a (s.ask q))) s

theorem mirrors_getById (d : Dictionary) (id : Int) (s : Call) :
    Mirrors .lookupRead [] s (s.getById d id) := by
  refine mirrors_ask (q := entryOfId d id) (fun s => ?_) s
  unfold during
  rcases s.ask (entryOfId d id) with ⟨e | _ | entry, s'⟩ <;> rfl

theorem mirrors_getByIds (d : Dictionary) {ids : List Int} (hids : ids ≠ []) (s : Call) :
    Mirrors .lookupRead [] s (s.getByIds d ids) := by
  cases ids with
  | nil => exact absurd rfl hids
  | cons id rest => exact mirrors_during_ask _ _ _ s

theorem mirrors_findIdsByNames (d : Dictionary) {list : List String} (hlist : list ≠ [])
    (s : Call) : Mirrors .lookupRead [] s (s.findIdsByNames d list) := by
  cases list with
  | nil => exact absurd rfl hlist
  | cons name rest =>
    refine mirrors_ask (q := entriesOfNames d (firstsBy id [] (name :: rest))) (fun s => ?_) s
    unfold during
    rcases s.ask (entriesOfNames d (firstsBy id [] (name :: rest))) with ⟨e | found, s'⟩ <;> rfl

theorem mirrors_clearOwner (k : EdgeKind) (owner : Int) (s : Call) :
    Mirrors .clearAssociations [] s (s.clearOwner k owner) := by
  refine mirrors_observed (.of_notes_eq ?_)
  rw [state_during]
  exact notes_change _ _ _ _

/-- A search that succeeds remarks how many rows it had, which is not an event. -/
theorem mirrors_search (limits : SearchLimits) (c : Search.Criteria) (s : Call) :
    Mirrors .search [] s (s.search limits c) := by
  refine mirrors_observed ?_
  have hread := notes_ask ((composeWithin limits c).rows
    (s.tell (.called .search)).connection.foldsCase) (s.tell (.called .search))
  rw [runSearch]
  generalize (s.tell (.called .search)).ask ((composeWithin limits c).rows
    (s.tell (.called .search)).connection.foldsCase) = r at hread ⊢
  rcases r with ⟨e | rows, s'⟩
  · exact .of_notes_eq hread
  · simp only [during]
    cases Search.summaries rows with
    | error f => exact .of_notes_eq hread
    | ok page => exact (Tells.of_notes_eq hread).trans ⟨[.searched _ _], rfl, rfl⟩

/-! ## Resolving -/

/-- A clash is told before the name is looked up again. -/
theorem tells_create (d : Dictionary) (name : String) (s : Call) :
    Tells s [] (names.create d name s).2 ∨ Tells s [.retried d] (names.create d name s).2 := by
  have hinsert : (names.insert d name s).2.notes = s.notes := notes_insertName d name s
  rw [NameStore.create]
  generalize names.insert d name s = r at hinsert ⊢
  rcases r with ⟨reply, s'⟩
  have hquiet : Tells s [] s' := .of_notes_eq hinsert
  rcases Stage.afterInsert_cases d reply with ⟨outcome, h⟩ | ⟨h, -⟩
  · left
    simp only [h]
    exact hquiet
  · right
    simp only [h]
    have hreread := notes_ask (idOfName d name) (s'.tell (.retried d))
    exact (hquiet.trans (tells_tell (.retried d) s')).trans (.of_notes_eq hreread)

theorem tells_findOrCreate (d : Dictionary) (name : String) (s : Call) :
    Tells s [] (names.findOrCreate d name s).2 ∨
      Tells s [.retried d] (names.findOrCreate d name s).2 := by
  have hfind : (names.find d name s).2.notes = s.notes := notes_ask _ s
  rw [NameStore.findOrCreate]
  generalize names.find d name s = r at hfind ⊢
  have hquiet : Tells s [] r.2 := .of_notes_eq hfind
  rcases r with ⟨e | _ | id, s'⟩
  · exact .inl hquiet
  · exact (tells_create d name s').imp hquiet.trans hquiet.trans
  · exact .inl hquiet

theorem mirrors_resolve (d : Dictionary) (name : String) (s : Call) :
    Mirrors .resolve [] s (s.resolve d name) ∨ Mirrors .resolve [.retried d] s (s.resolve d name) :=
  (tells_findOrCreate d name (s.tell (.called .resolve))).imp mirrors_observed mirrors_observed

/-- What one name tells. -/
theorem tells_resolve (d : Dictionary) (name : String) (s : Call) :
    Tells s (emitted s (names.resolve d name s).2) (names.resolve d name s).2 := by
  rcases mirrors_resolve d name s with h | h
  · exact (Tells.emitted_eq h).symm ▸ h
  · exact (Tells.emitted_eq h).symm ▸ h

/-- A list tells what its names tell, one after the other. -/
theorem tells_resolveEach (d : Dictionary) (list : List String) (s : Call) :
    Tells s ((names.runs d list s).flatMap fun r => emitted r.start (r.start.resolve d r.name).2)
      (names.resolveEach d list s).2 := by
  induction list generalizing s with
  | nil => exact .refl s
  | cons name rest ih =>
    have hfirst := tells_resolve d name s
    rw [NameStore.resolveEach, NameStore.runs, List.flatMap_cons, Call.resolve]
    generalize names.resolve d name s = r at hfirst ⊢
    rcases r with ⟨e | id, s'⟩
    · exact hfirst.trans (.refl s')
    · have hboth := hfirst.trans (ih s')
      simp only
      generalize names.resolveEach d rest s' = r at hboth ⊢
      rcases r with ⟨e | ids, s''⟩ <;> exact hboth

theorem tells_resolveAll (d : Dictionary) {list : List String} (hlist : list ≠ []) (s : Call) :
    Tells s (.called .resolveAll :: (names.runs d list (s.tell (.called .resolveAll))).flatMap
      fun r => emitted r.start (r.start.resolve d r.name).2) (s.resolveAll d list).2 := by
  rw [resolveAll, names.resolveAll_of_ne_nil d hlist]
  exact (tells_tell (.called .resolveAll) s).trans (tells_resolveEach d list _)

/-! ## Attaching -/

theorem notes_addEach (k : EdgeKind) (owner : Int) (ids : List Int) (skipped : Nat) (s : Call) :
    (s.addEach k owner ids skipped).2.notes = s.notes := by
  induction ids generalizing skipped s with
  | nil => rfl
  | cons id rest ih =>
    have hfirst := notes_change .edge (fun _ => false)
      (insertEdge s.connection.ignoresRules k ⟨owner, id⟩) s
    rw [addEach]
    generalize s.change .edge (fun _ => false)
      (insertEdge s.connection.ignoresRules k ⟨owner, id⟩) = r at hfirst ⊢
    rcases r with ⟨e | u, s'⟩
    · simp only
      split
      · exact (ih _ s').trans hfirst
      · exact hfirst
    · exact (ih skipped s').trans hfirst

theorem notes_addAll (k : EdgeKind) (owner : Int) (ids : List Int) (s : Call) :
    (s.addAll k owner ids).2.notes = s.notes := by
  have hadded : ((s.prepare .edge).addEach k owner ids 0).2.notes = s.notes :=
    notes_addEach k owner ids 0 (s.prepare .edge)
  unfold addAll
  split
  · rfl
  · generalize (s.prepare .edge).addEach k owner ids 0 = r at hadded ⊢
    rcases r with ⟨e | skipped, s'⟩
    · exact hadded
    · have hchecked : (during (.finish k) s'.check).2.notes = s'.notes := by
        rw [state_during]
        exact s'.notes_check
      simp only
      generalize during (.finish k) s'.check = r at hchecked ⊢
      rcases r with ⟨e | u, s''⟩ <;> exact hchecked.trans hadded

/-- What an attachment tells between its announcement and its report, of which the error is given:
nothing, or that its transaction could not be undone, and then it failed. -/
inductive Undoing : Option BoardError → List Event → Prop where
  | quiet {e : Option BoardError} : Undoing e []
  | failed {e : BoardError} {cause : StoreError} :
      Undoing (some e) [.rollbackFailed .associate cause]

/-- That a transaction cannot be undone is told; there is none left to undo then. -/
theorem tells_undoEdges (s : Call) :
    Tells s (if s.connection.autocommit then
      [.rollbackFailed .associate (.refused .nothingToRollBack)] else []) s.undoEdges := by
  unfold undoEdges Connection.rollback Connection.autocommit
  cases hs : s.connection.transaction with
  | none =>
    exact tells_tell (.rollbackFailed .associate (.refused .nothingToRollBack))
      { s with connection := s.connection }
  | some t => exact .of_notes_eq rfl

/-- Edges that were added are remarked, which is not an event. -/
theorem tells_commitEdges (k : EdgeKind) (requested skipped : Nat) (s : Call) :
    Tells s [] (s.commitEdges k requested skipped).2 := by
  unfold commitEdges
  split
  · exact ⟨[.edgesAdded k requested skipped], rfl, rfl⟩
  · exact .of_notes_eq rfl

theorem tells_insertEdges (k : EdgeKind) (owner : Int) (ids : List Int) (s : Call) :
    ∃ between, Undoing (raised? (s.insertEdges k owner ids).1) between ∧
      Tells s between (s.insertEdges k owner ids).2 := by
  have hchecked : (during (.start k) s.check).2.notes = s.notes := by
    rw [state_during]
    exact s.notes_check
  unfold insertEdges
  generalize during (.start k) s.check = r at hchecked ⊢
  rcases r with ⟨e | u, s₁⟩
  · exact ⟨[], .quiet, .of_notes_eq hchecked⟩
  simp only
  split
  · exact ⟨[], .quiet, .of_notes_eq hchecked⟩
  rename_i c _
  have hadded := notes_addAll k owner ids { s₁ with connection := c }
  generalize { s₁ with connection := c }.addAll k owner ids = r at hadded ⊢
  have hquiet : Tells s [] r.2 := .of_notes_eq (hadded.trans hchecked)
  rcases r with ⟨e | skipped, s₂⟩
  · refine ⟨_, ?_, hquiet.trans (tells_undoEdges s₂)⟩
    cases s₂.connection.autocommit with
    | true => exact .failed
    | false => exact .quiet
  · exact ⟨[], .quiet, hquiet.trans (tells_commitEdges k _ skipped s₂)⟩

theorem mirrors_associate (k : EdgeKind) (owner : Int) {ids : List Int} (hids : ids ≠ [])
    (s : Call) :
    ∃ between, Undoing (raised? (s.associate k owner ids).1) between ∧
      Mirrors .associate between s (s.associate k owner ids) := by
  cases ids with
  | nil => exact absurd rfl hids
  | cons id rest =>
    obtain ⟨between, hundoing, htells⟩ :=
      tells_insertEdges k owner (id :: rest) (s.tell (.called .associate))
    refine ⟨between, ?_, mirrors_observed htells⟩
    rw [associate, answer_observed]
    · exact hundoing
    · simp

/-! ## Reports -/

/-- A call reports the error that it ends in, once and last. -/
def Reports (s : Call) (r : Answered Call α) : Prop :=
  ∃ es, Tells s es r.2 ∧ ReportedOnce (raised? r.1) es

/-- What went on before without an error makes no difference. -/
theorem Reports.after {β : Type} {a : β} {r : Answered Call α} (h' : Reports s' r)
    (h : Reports s ((.ok a, s') : Answered Call β)) : Reports s r := by
  obtain ⟨es, htells, honce⟩ := h
  obtain ⟨es', htells', honce'⟩ := h'
  exact ⟨es ++ es', htells.trans htells', honce'.append honce⟩

/-- What is told in two parts is told in one after the other. -/
theorem Reports.emitted_after {β : Type} {r : Answered Call α} {r' : Answered Call β}
    (h' : Reports r.2 r') (h : Reports s r) :
    emitted s r'.2 = emitted s r.2 ++ emitted r.2 r'.2 := by
  obtain ⟨es, htells, -⟩ := h
  obtain ⟨es', htells', -⟩ := h'
  rw [(htells.trans htells').emitted_eq, htells.emitted_eq, htells'.emitted_eq]

theorem Mirrors.reports {op : Operation} {between : List Event} {r : Answered Call α}
    (h : Mirrors op between s r) (hbetween : between.filterMap Event.failure? = []) :
    Reports s r := by
  refine ⟨_, h, ?_⟩
  have hcalled : ReportedOnce none (.called op :: between) := ⟨hbetween, nofun⟩
  exact (reportedOnce_report op _).append hcalled

theorem reports_resolve (d : Dictionary) (name : String) (s : Call) :
    Reports s (s.resolve d name) := by
  rcases mirrors_resolve d name s with h | h
  · exact h.reports rfl
  · exact h.reports rfl

theorem reports_resolveEach (d : Dictionary) (list : List String) (s : Call) :
    Reports s (names.resolveEach d list s) := by
  induction list generalizing s with
  | nil => exact ⟨[], .refl s, .nil⟩
  | cons name rest ih =>
    have hfirst : Reports s (names.resolve d name s) := reports_resolve d name s
    rw [NameStore.resolveEach]
    generalize names.resolve d name s = r at hfirst ⊢
    rcases r with ⟨e | id, s₁⟩
    · exact hfirst
    · have hrest := (ih s₁).after hfirst
      simp only
      generalize names.resolveEach d rest s₁ = r at hrest ⊢
      rcases r with ⟨e | ids, s₂⟩ <;> exact hrest

theorem reports_resolveAll (d : Dictionary) (list : List String) (s : Call) :
    Reports s (s.resolveAll d list) := by
  cases list with
  | nil => exact ⟨[], .refl s, .nil⟩
  | cons name rest =>
    obtain ⟨es, htells, honce⟩ :=
      reports_resolveEach d (name :: rest) (s.tell (.called .resolveAll))
    have hcalled : ReportedOnce none [.called .resolveAll] := ⟨rfl, nofun⟩
    exact ⟨_, (tells_tell (.called .resolveAll) s).trans htells, honce.append hcalled⟩

theorem reports_associate (k : EdgeKind) (owner : Int) (ids : List Int) (s : Call) :
    Reports s (s.associate k owner ids) := by
  by_cases hids : ids = []
  · subst hids
    exact ⟨[], .refl s, .nil⟩
  · obtain ⟨between, hundoing, hmirrors⟩ := mirrors_associate k owner hids s
    refine hmirrors.reports ?_
    generalize raised? (s.associate k owner ids).1 = e at hundoing
    cases hundoing <;> rfl

/-! ## Names and edges -/

/-- What attaching names tells: what resolving them tells, and then, if that went well, what
attaching their ids tells. -/
theorem tells_attachNames (k : EdgeKind) (owner : Int) (list : List String) (s : Call) :
    emitted s (s.attachNames k owner list).2 =
        emitted s (s.resolveAll k.dictionary (normalizeNames list)).2 ++
          (match s.resolveAll k.dictionary (normalizeNames list) with
          | (.ok ids, s') => emitted s' (s'.associate k owner ids).2
          | (.error _, _) => []) ∧
      Reports s (s.attachNames k owner list) := by
  have hresolve := reports_resolveAll k.dictionary (normalizeNames list) s
  unfold attachNames
  split
  · rename_i hnil
    rw [hnil]
    exact ⟨by simp [resolveAll, NameStore.resolveAll, associate, emitted, events],
      [], .refl s, .nil⟩
  · generalize s.resolveAll k.dictionary (normalizeNames list) = r at hresolve ⊢
    rcases r with ⟨e | ids, s'⟩
    · exact ⟨(List.append_nil _).symm, hresolve⟩
    · have hassociate := reports_associate k owner ids s'
      simp only
      generalize s'.associate k owner ids = r at hassociate ⊢
      have hboth := hassociate.emitted_after hresolve
      rcases r with ⟨e | u, s''⟩ <;> exact ⟨hboth, hassociate.after hresolve⟩

/-- What replacing names tells: what the clearing tells, and then, if that went well, what attaching
the names tells. -/
theorem tells_replaceNames (k : EdgeKind) (owner : Int) (list : List String) (s : Call) :
    emitted s (s.replaceNames k owner list).2 =
        emitted s (s.clearOwner k owner).2 ++
          (match s.clearOwner k owner with
          | (.ok _, s') => emitted s' (s'.attachNames k owner list).2
          | (.error _, _) => []) ∧
      Reports s (s.replaceNames k owner list) := by
  have hclear := (mirrors_clearOwner k owner s).reports rfl
  unfold replaceNames
  generalize s.clearOwner k owner = r at hclear ⊢
  rcases r with ⟨e | n, s'⟩
  · exact ⟨(List.append_nil _).symm, hclear⟩
  · have hattach := (tells_attachNames k owner list s').2
    exact ⟨hattach.emitted_after hclear, hattach.after hclear⟩

end Call

end JobBoard
