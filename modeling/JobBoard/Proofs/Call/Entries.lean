import JobBoard.Call.NamedEdges
import JobBoard.Proofs.Call.Attachment
import JobBoard.Proofs.Call.Protocol

/-!
# What calls do to the tables and tell about entries

Every call of the board, outside a transaction, leads from tables to tables by elementary changes of
the areas that it is about (`leads_resolveAll`, `leads_attachNames` and so on). An id or an entry
that a call answers is one that the tables hold when the call is over (`resolve_known` and so on).
-/

set_option autoImplicit false

namespace JobBoard

open Observe Store

variable {d : Dictionary}

/-! ## Queries on entries -/

theorem run_ofEntries {α : Type} {n : Nat} {f : List Entry → α} {db : Database} {a : α}
    (h : (ofEntries d n f).run db = .ok (.ok a)) : a = f (db.rows (.dictionary d)) := by
  cases ho : db.occupant (.dictionary d) with
  | vacant => simp [ofEntries, Database.use, ho, Except.map] at h
  | standIn g => simp [ofEntries, Database.use, ho, Except.map] at h
  | own x =>
    rw [Database.rows_of_table ((db.occupant_eq_own_iff _ x).1 ho)]
    simpa [ofEntries, Database.use, ho, Except.map, eq_comm] using h

theorem run_ofEntries_of_table {α : Type} {n : Nat} {f : List Entry → α} {db : Database}
    {x : Table Entry} (hx : db.table (.dictionary d) = some x) :
    (ofEntries d n f).run db = .ok (.ok (f (db.rows (.dictionary d)))) := by
  have huse : db.use (.dictionary d) "name" = .ok x := by
    rw [Database.use, (db.occupant_eq_own_iff (.dictionary d) x).2 hx]
  show (db.use (.dictionary d) "name").map _ = _
  rw [huse, Database.rows_of_table hx]
  rfl

namespace Call

variable {s : Call} {areas : List Area}

/-- An entry stands in its dictionary. -/
def Knows (d : Dictionary) (e : Entry) (s : Call) : Prop :=
  e ∈ s.connection.committed.rows (.dictionary d)

theorem Leads.knows {s s' : Call} (h : Leads areas s s') (hs : s.connection.transaction = none)
    {e : Entry} (he : s.Knows d e) : s'.Knows d e :=
  (h hs).2.2.keepsEntries d e he

theorem Leads.free {s s' : Call} (h : Leads areas s s') (hs : s.connection.transaction = none)
    (hfree : s.connection.commitBlocked = false) : s'.connection.commitBlocked = false :=
  (Connection.commitBlocked_of_settings (h hs).2.1).trans hfree

/-- An answer about the entries of a dictionary is read off the committed tables. -/
theorem eq_of_ask_ofEntries {α : Type} {n : Nat} {f : List Entry → α} {a : α}
    (hs : s.connection.transaction = none) (h : (s.ask (ofEntries d n f)).1 = .ok a) :
    a = f (s.connection.committed.rows (.dictionary d)) := by
  rw [← Connection.view_of_alone hs]
  exact run_ofEntries (run_of_ask h)

/-! ## The store of names -/

theorem leads_findId (name : String) (s : Call) : Leads areas s (s.findId d name).2 :=
  leads_ask _ s

theorem findId_known (hs : s.connection.transaction = none) {name : String} {id : Int}
    (h : (s.findId d name).1 = .ok (some id)) : (s.findId d name).2.Knows d ⟨id, name⟩ := by
  have hfound := eq_of_ask_ofEntries hs h
  obtain ⟨e, he, rfl⟩ := Option.map_eq_some_iff.1 hfound.symm
  obtain rfl : e.name = name := by simpa using List.find?_some he
  rw [Knows, findId, connection_ask hs]
  exact List.mem_of_find?_eq_some he

theorem state_insertName (name : String) (s : Call) :
    (s.insertName d name).2 =
      (s.change (.entry d) Option.isSome (insertEntry s.connection.ignoresRules d name)).2 := by
  unfold insertName
  rcases s.change (.entry d) Option.isSome (insertEntry s.connection.ignoresRules d name) with
    ⟨e | _ | id, s'⟩ <;> rfl

theorem insertName_eq_ok_iff (name : String) (s : Call) (id : Int) :
    (s.insertName d name).1 = .ok id ↔
      (s.change (.entry d) Option.isSome (insertEntry s.connection.ignoresRules d name)).1 =
        .ok (some id) := by
  unfold insertName
  rcases s.change (.entry d) Option.isSome (insertEntry s.connection.ignoresRules d name) with
    ⟨e | _ | id, s'⟩ <;> simp

theorem insertName_of_error {name : String} {s : Call} {e : StoreError}
    (h : (s.change (.entry d) Option.isSome
      (insertEntry s.connection.ignoresRules d name)).1 = .error e) :
    (s.insertName d name).1 = .error e := by
  rw [insertName]
  generalize s.change (.entry d) Option.isSome
    (insertEntry s.connection.ignoresRules d name) = r at h
  rcases r with ⟨outcome, s'⟩
  obtain rfl : outcome = .error e := h
  rfl

theorem leads_insertName (name : String) (s : Call) :
    Leads [.entries d] s (s.insertName d name).2 := by
  rw [state_insertName]
  exact leads_change (List.mem_singleton_self _) _ _ _ s fun db e he => insertEntry_step he

/-- An insertion of a name fails and changes nothing, or the name was new and stands at the end. -/
theorem insertName_cases (d : Dictionary) (name : String) (hs : s.connection.transaction = none)
    (hfree : s.connection.commitBlocked = false) :
    let r := s.insertName d name
    ((∃ e, r.1 = .error e) ∧ r.2.connection.committed = s.connection.committed) ∨
      ∃ x, s.connection.committed.table (.dictionary d) = some x ∧
        (∀ e ∈ x.rows, e.name ≠ name) ∧ r.1 = .ok (newEntry x name).id ∧
        r.2.connection.committed =
          s.connection.committed.withRow (.dictionary d) x (newEntry x name) := by
  intro r
  have hstate := state_insertName (d := d) name s
  rcases change_alone_cases hs (.entry d) Option.isSome
      (insertEntry s.connection.ignoresRules d name) with
    ⟨⟨e, he⟩, hsame⟩ | ⟨hblocked, -⟩ | ⟨-, e, answer, he, ha, hpublished, hok⟩
  · refine .inl ⟨?_, ?_⟩
    · cases hr : r.1 with
      | error e => exact ⟨e, rfl⟩
      | ok id =>
        rw [(insertName_eq_ok_iff name s id).1 hr] at he
        cases he
    · rw [show r.2 = _ from hstate, hsame]
  · rw [hfree] at hblocked
    cases hblocked
  · have hcommitted : r.2.connection.committed = e.tables := by
      rw [show r.2 = _ from hstate, hpublished]
      rfl
    obtain ⟨x, hx, ⟨htables, hnone, -⟩ | ⟨hnew, -, work, hwork, rfl⟩⟩ := insertEntry_cases he
    · refine .inl ⟨?_, hcommitted.trans htables⟩
      cases hr : r.1 with
      | error e => exact ⟨e, rfl⟩
      | ok id =>
        have hid := (insertName_eq_ok_iff name s id).1 hr
        rcases hok with hok | ⟨-, cause, hcause, -⟩
        · obtain rfl := Except.ok.inj (hok.symm.trans hid)
          exact absurd ha (hnone id)
        · exact nomatch hcause.symm.trans hid
    · obtain rfl : some (newEntry x name).id = answer := Except.ok.inj ha
      rcases hok with hok | ⟨⟨l, hl, hsettled⟩, -⟩
      · exact .inr ⟨x, hx, hnew, (insertName_eq_ok_iff name s _).2 hok, hcommitted⟩
      -- an id is handed back before the insertion is settled, so no look finds it settled
      · rw [Work.not_settled_of_after_eq_zero hwork hl] at hsettled
        exact nomatch hsettled

theorem insertName_known (hs : s.connection.transaction = none)
    (hfree : s.connection.commitBlocked = false) {name : String} {id : Int}
    (h : (s.insertName d name).1 = .ok id) : (s.insertName d name).2.Knows d ⟨id, name⟩ := by
  obtain ⟨⟨e, he⟩, -⟩ | ⟨x, hx, -, hok, hcommitted⟩ := insertName_cases d name hs hfree
  · rw [h] at he
    cases he
  · obtain rfl : id = (newEntry x name).id := Except.ok.inj (h.symm.trans hok)
    rw [Knows, hcommitted, Database.rows_withRow hx]
    exact List.mem_append_right _ (List.mem_singleton_self _)

/-- A clash at the insertion of a name means that the name is there. -/
theorem insertName_clash (hs : s.connection.transaction = none) {name : String} {e : StoreError}
    (h : (s.insertName d name).1 = .error e) (hunique : e.writeFailure = .uniqueViolation) :
    ∃ b ∈ s.connection.committed.rows (.dictionary d), b.name = name := by
  have hchange : (s.change (.entry d) Option.isSome
      (insertEntry s.connection.ignoresRules d name)).1 = .error e := by
    unfold insertName at h
    rcases hr : s.change (.entry d) Option.isSome
        (insertEntry s.connection.ignoresRules d name) with
      ⟨e' | _ | id, s'⟩
    · simpa [hr] using h
    · obtain rfl : (StoreError.fault .noRow) = e := by simpa [hr] using h
      simp [StoreError.writeFailure, StoreFault.writeFailure, StoreFault.codes?] at hunique
    · simp [hr] at h
  rcases change_cases (.entry d) Option.isSome (insertEntry s.connection.ignoresRules d name) s with
    ⟨-, e', he', hcancelled⟩ | ⟨-, hanswer⟩
  · obtain rfl : e' = e := Except.error.inj (he'.symm.trans hchange)
    simp [StoreError.writeFailure_of_isCancellation hcancelled] at hunique
  rw [hanswer] at hchange
  rcases Connection.write_alone_cases hs Option.isSome
      (insertEntry s.connection.ignoresRules d name) with
    ⟨-, cause, hcause, hrefused⟩ | ⟨-, -, -, a, -, -, -, hok⟩ | ⟨-, e', a, -, -, -, hwrite⟩
  · obtain rfl : StoreError.refused cause = e := by
      simpa [hcause, Except.mapError] using hchange
    have hdup := (StoreError.writeFailure_refused_eq_unique_iff cause).1 hunique
    -- of all refusals only one that comes of the run can be a clash
    rcases hrefused with hhindrance | ⟨db, hdb⟩ | ⟨e, he, hanswer⟩
    · simp [hhindrance.not_isDuplicate] at hdup
    · simp [insertEntry_error hdb] at hdup
    · rw [Connection.view_of_alone hs] at he
      obtain ⟨x, hx, ⟨-, -, hclash⟩ | ⟨-, -, work, -, rfl⟩⟩ := insertEntry_cases he
      · rw [Database.rows_of_table hx]
        exact hclash cause hanswer hdup
      · simp [Effect.done] at hanswer
  · simp [hok, Except.mapError] at hchange
  · simp [hwrite, Except.mapError] at hchange

/-! ## Resolving -/

/-- What a run of the protocol has come to: it led to the tables by new entries, and the entries
that it is certain of are there. -/
structure Gathered (d : Dictionary) (list : List String) (s : Call) (a : Progress × Call) :
    Prop where
  covers : a.1.Covers list
  leads : Leads [.entries d] s a.2
  known : s.connection.transaction = none → s.connection.commitBlocked = false →
    ∀ e ∈ a.1.entries, a.2.Knows d e

/-- One call of the store: it leads to the new tables by new entries, and an id that ends the stage
is that of the name. -/
theorem advance_cases (name : String) {stage : Stage}
    (hstage : ∀ outcome, stage ≠ .finished outcome) (s : Call) :
    Leads [.entries d] s (names.advance d name stage s).2 ∧
      ∀ id, (names.advance d name stage s).1 = .finished (.ok id) →
        s.connection.transaction = none → s.connection.commitBlocked = false →
        (names.advance d name stage s).2.Knows d ⟨id, name⟩ := by
  have hfind : ∀ (event : Event) (after : Except StoreError (Option Int) → Stage),
      (∀ reply id, after reply = .finished (.ok id) → reply = .ok (some id)) →
      Leads [.entries d] s ((s.tell event).findId d name).2 ∧
        ∀ id, after ((s.tell event).findId d name).1 = .finished (.ok id) →
          s.connection.transaction = none → s.connection.commitBlocked = false →
          ((s.tell event).findId d name).2.Knows d ⟨id, name⟩ := by
    intro event after hafter
    refine ⟨(leads_tell event s).trans (leads_findId name _), fun id hid hs _ => ?_⟩
    exact findId_known ((connection_tell event s).symm ▸ hs) (hafter _ _ hid)
  cases stage with
  | finished outcome => exact absurd rfl (hstage outcome)
  | find =>
    refine hfind (.called .resolve) (Stage.afterFind d) ?_
    rintro (e | _ | id) i h <;> simp [Stage.afterFind] at h
    rw [h]
  | reread =>
    refine hfind (.retried d) (fun reply => .finished (Stage.afterReread d reply)) ?_
    rintro (e | _ | id) i h <;> simp [Stage.afterReread] at h
    rw [h]
  | insert =>
    refine ⟨leads_insertName name s, fun id hid hs hfree => insertName_known hs hfree ?_⟩
    replace hid : Stage.afterInsert d (s.insertName d name).1 = .finished (.ok id) := hid
    cases hreply : (s.insertName d name).1 with
    | ok i => simpa [hreply, Stage.afterInsert] using hid
    | error e =>
      rw [hreply, Stage.afterInsert] at hid
      split at hid <;> simp at hid

theorem gathered_step {list : List String} {s : Call} {a : Progress × Call}
    (h : Gathered d list s a) : Gathered d list s (names.step d a) := by
  obtain ⟨p, s'⟩ := a
  have hcovers := NameStore.covers_step names d h.covers
  cases p with
  | ended outcome => exact h
  | working entries stage name rest =>
    obtain ⟨hadvance, hid⟩ := advance_cases (d := d) name h.covers.2 s'
    have hleads := h.leads.trans hadvance
    have hknown : s.connection.transaction = none → s.connection.commitBlocked = false →
        ∀ e ∈ entries, (names.advance d name stage s').2.Knows d e :=
      fun hs hfree e he => hadvance.knows (h.leads hs).1 (h.known hs hfree e he)
    revert hcovers
    show (names.settle entries name rest (names.advance d name stage s')).1.Covers list →
      Gathered d list s (names.settle entries name rest (names.advance d name stage s'))
    rcases hr : names.advance d name stage s' with ⟨after, s''⟩
    simp only [hr] at hleads hknown hid
    intro hcovers
    cases after with
    | find => exact ⟨hcovers, hleads, hknown⟩
    | insert => exact ⟨hcovers, hleads, hknown⟩
    | reread => exact ⟨hcovers, hleads, hknown⟩
    | finished outcome =>
      cases outcome with
      | error e => exact ⟨trivial, hleads.trans (leads_tell _ _), fun _ _ e he => nomatch he⟩
      | ok id =>
        refine ⟨hcovers, hleads, fun hs hfree e he => ?_⟩
        replace he : e ∈ (Progress.next (entries ++ [⟨id, name⟩]) rest).entries := he
        rw [Progress.entries_next, List.mem_append, List.mem_singleton] at he
        rcases he with he | rfl
        · exact hknown hs hfree e he
        · exact hid id rfl (h.leads hs).1 (h.leads.free hs hfree)

/-- Resolving a list leads to the new tables by new entries, and what it answers are the ids that
the names have then. -/
theorem resolveEach_cases (d : Dictionary) (list : List String) (s : Call) :
    Leads [.entries d] s (names.resolveEach d list s).2 ∧
      ∀ ids, (names.resolveEach d list s).1 = .ok ids → s.connection.transaction = none →
        s.connection.commitBlocked = false →
        ids.length = list.length ∧ ∀ e ∈ List.zipWith Entry.mk ids list,
          (names.resolveEach d list s).2.Knows d e := by
  obtain ⟨outcome, hreaches, houtcome⟩ := names.reaches_resolveEach d [] list s
  have hgathered : Gathered d list s (.ended outcome, (names.resolveEach d list s).2) := by
    refine hreaches.preserves (P := Gathered d list s) (fun _ => gathered_step)
      ⟨?_, .refl s, fun _ _ e he => ?_⟩
    · exact Progress.covers_next rfl
    · rw [Progress.entries_next] at he
      simp at he
  refine ⟨hgathered.leads, fun ids hids hs hfree => ?_⟩
  rw [hids] at houtcome
  cases outcome with
  | error e => simp [Except.map] at houtcome
  | ok entries =>
    have hcovers : entries.map Entry.name = list := hgathered.covers
    obtain rfl : entries.map Entry.id = ids := by simpa [Except.map] using houtcome
    subst hcovers
    have hzip :
        List.zipWith Entry.mk (entries.map Entry.id) (entries.map Entry.name) = entries := by
      rw [List.zipWith_map, List.zipWith_self]
      exact List.map_id _
    rw [hzip]
    exact ⟨by simp, hgathered.known hs hfree⟩

theorem leads_resolveAll (d : Dictionary) (list : List String) (s : Call) :
    Leads [.entries d] s (s.resolveAll d list).2 := by
  by_cases hlist : list = []
  · subst hlist
    exact .refl s
  · rw [resolveAll, names.resolveAll_of_ne_nil d hlist]
    exact (leads_tell (.called .resolveAll) s).trans (resolveEach_cases d list _).1

/-- Where insertions leave the connection as it is, resolving names does. -/
theorem connection_resolveAll (hs : s.connection.transaction = none)
    (hinsert : ∀ name (s' : Call), s'.connection = s.connection →
      (s'.insertName d name).2.connection = s'.connection) (list : List String) :
    (s.resolveAll d list).2.connection = s.connection := by
  by_cases hlist : list = []
  · subst hlist
    rfl
  · rw [resolveAll, names.resolveAll_of_ne_nil d hlist]
    refine names.resolveEach_keeps d (P := fun s' => s'.connection = s.connection) ?_ ?_ ?_ list
      (connection_tell _ s)
    · exact fun e s' h => (connection_tell e s').trans h
    · exact fun name s' h => (connection_ask (h ▸ hs) _).trans h
    · exact fun name s' h => (hinsert name s' h).trans h

/-- The ids of a list are those that the names have in the end, one for each. -/
theorem resolveAll_known {list : List String} {ids : List Int}
    (hs : s.connection.transaction = none) (hfree : s.connection.commitBlocked = false)
    (h : (s.resolveAll d list).1 = .ok ids) :
    ids.length = list.length ∧ ∀ e ∈ List.zipWith Entry.mk ids list,
      (s.resolveAll d list).2.Knows d e := by
  by_cases hlist : list = []
  · subst hlist
    obtain rfl : [] = ids := Except.ok.inj h
    exact ⟨rfl, by simp⟩
  · have htold := connection_tell (.called .resolveAll) s
    rw [resolveAll, names.resolveAll_of_ne_nil d hlist] at h ⊢
    exact (resolveEach_cases d list _).2 ids h (htold ▸ hs) (htold ▸ hfree)

theorem leads_resolve (d : Dictionary) (name : String) (s : Call) :
    Leads [.entries d] s (s.resolve d name).2 := by
  have h := (resolveEach_cases d [name] s).1
  rw [NameStore.resolveEach_singleton] at h
  exact h

/-- The id of a name is the one that it has in the end. -/
theorem resolve_known {name : String} {id : Int} (hs : s.connection.transaction = none)
    (hfree : s.connection.commitBlocked = false) (h : (s.resolve d name).1 = .ok id) :
    (s.resolve d name).2.Knows d ⟨id, name⟩ := by
  have heach := (resolveEach_cases d [name] s).2 [id]
  rw [NameStore.resolveEach_singleton] at heach
  refine (heach ?_ hs hfree).2 _ (List.mem_singleton_self _)
  show (s.resolve d name).1.map _ = _
  rw [h]
  rfl

/-- A name that has an entry is never resolved to another id. -/
theorem resolve_of_known {e : Entry} {id : Int} (hs : s.connection.transaction = none)
    (hnames : ((s.connection.committed.rows (.dictionary d)).map Entry.name).Nodup)
    (he : s.Knows d e) (h : (s.resolve d e.name).1 = .ok id) : id = e.id := by
  have htold := connection_tell (.called .resolve) s
  rw [resolve, NameStore.resolve] at h
  replace h : (names.findOrCreate d e.name (s.tell (.called .resolve))).1 = .ok id :=
    (answer_observed .resolve (names.findOrCreate d e.name) s).symm.trans h
  rw [NameStore.findOrCreate] at h
  rcases hr : names.find d e.name (s.tell (.called .resolve)) with ⟨cause | found, s'⟩
  · simp [hr, Stage.afterFind] at h
  -- the first look-up already finds the entry, so nothing is inserted
  have hfound := eq_of_ask_ofEntries (s := s.tell (.called .resolve)) (a := found)
    (htold.symm ▸ hs) (congrArg Prod.fst hr)
  rw [htold] at hfound
  rw [find?_of_nodup_map hnames he] at hfound
  subst hfound
  simpa [hr, Stage.afterFind, eq_comm] using h

/-! ## Edges -/

theorem leads_clearOwner (k : EdgeKind) (owner : Int) (s : Call) :
    Leads [.edges k owner] s (s.clearOwner k owner).2 := by
  refine leads_observed (fun s => ?_) s
  rw [state_during]
  exact leads_change (List.mem_singleton_self _) _ _ _ s fun db e he => .inr (clearEdges_step he)

/-- The areas of the calls that attach names. -/
def namedAreas (k : EdgeKind) (owner : Int) : List Area := [.entries k.dictionary, .edges k owner]

theorem leads_attachNames (k : EdgeKind) (owner : Int) (list : List String) (s : Call) :
    Leads (namedAreas k owner) s (s.attachNames k owner list).2 := by
  unfold attachNames
  split
  · exact .refl s
  · have hresolve : Leads (namedAreas k owner) s _ :=
      (leads_resolveAll k.dictionary (normalizeNames list) s).mono (by simp [namedAreas])
    rcases hr : s.resolveAll k.dictionary (normalizeNames list) with ⟨_ | ids, s'⟩
    · rw [hr] at hresolve
      exact hresolve
    · rw [hr] at hresolve
      have hassociate : Leads (namedAreas k owner) s' (s'.associate k owner ids).2 :=
        leads_associate (by simp [namedAreas]) ids s'
      rcases ha : s'.associate k owner ids with ⟨_ | _, s''⟩ <;>
        rw [ha] at hassociate <;> simpa only [ha] using hresolve.trans hassociate

/-- The ids of the names that were attached are those that the names have. -/
theorem attachNames_known {k : EdgeKind} {owner : Int} {list : List String} {ids : List Int}
    (hs : s.connection.transaction = none) (hfree : s.connection.commitBlocked = false)
    (h : (s.attachNames k owner list).1 = .ok ids) :
    ∀ e ∈ List.zipWith Entry.mk ids (normalizeNames list),
      (s.attachNames k owner list).2.Knows k.dictionary e := by
  unfold attachNames at h ⊢
  split at h
  · rename_i hnil
    simp [hnil]
  · rename_i usable hne
    have hresolve := leads_resolveAll k.dictionary (normalizeNames list) s
    have hknown := fun ids' (h : (s.resolveAll k.dictionary (normalizeNames list)).1 = .ok ids') =>
      resolveAll_known hs hfree h
    rcases hr : s.resolveAll k.dictionary (normalizeNames list) with ⟨_ | ids', s'⟩
    · simp [hr] at h
    · simp only [hr] at h hresolve hknown ⊢
      have hassociate : Leads (namedAreas k owner) s' (s'.associate k owner ids').2 :=
        leads_associate (by simp [namedAreas]) ids' s'
      rcases ha : s'.associate k owner ids' with ⟨_ | _, s''⟩
      · simp [ha] at h
      · simp only [ha, Except.ok.injEq] at h hassociate ⊢
        subst h
        exact fun e he => hassociate.knows (hresolve hs).1 ((hknown _ rfl).2 e he)

theorem leads_replaceNames (k : EdgeKind) (owner : Int) (list : List String) (s : Call) :
    Leads (namedAreas k owner) s (s.replaceNames k owner list).2 := by
  have hclear : Leads (namedAreas k owner) s _ :=
    (leads_clearOwner k owner s).mono (by simp [namedAreas])
  unfold replaceNames
  rcases hr : s.clearOwner k owner with ⟨_ | n, s'⟩
  · rw [hr] at hclear
    exact hclear
  · rw [hr] at hclear
    exact hclear.trans (leads_attachNames k owner list s')

theorem replaceNames_known {k : EdgeKind} {owner : Int} {list : List String} {ids : List Int}
    (hs : s.connection.transaction = none) (hfree : s.connection.commitBlocked = false)
    (h : (s.replaceNames k owner list).1 = .ok ids) :
    ∀ e ∈ List.zipWith Entry.mk ids (normalizeNames list),
      (s.replaceNames k owner list).2.Knows k.dictionary e := by
  have hclear := leads_clearOwner k owner s
  unfold replaceNames at h ⊢
  rcases hr : s.clearOwner k owner with ⟨_ | n, s'⟩
  · simp [hr] at h
  · simp only [hr] at h hclear ⊢
    exact attachNames_known (hclear hs).1 (hclear.free hs hfree) h

end Call

end JobBoard
