import JobBoard.Proofs.Call.Request
import JobBoard.Proofs.Call.Telling
import JobBoard.Proofs.Observe.Lines

/-!
# What the log does not tell

Replies can be put on a tape and played back to the protocol, whatever names it then asks about. It
comes to the same outcome and tells the same events as on the store that gave the replies
(`plays_resolve`, `plays_resolveAll`). So the names that are resolved have no part in either. A
search writes two lines, which are made of the number of arguments and of how it ended
(`notes_search`). The main theorem is `log_ignores_names_and_texts`.
-/

set_option autoImplicit false

namespace JobBoard

open Observe

/-! ## Replies and events of a record -/

/-- A reply of a store of names. -/
inductive StoreReply where
  | found (reply : Except StoreError (Option Int))
  | inserted (reply : Except StoreError Int)

/-- The reply of an exchange, which says neither the name nor the dictionary. -/
def Exchange.reply? : Exchange → Option StoreReply
  | .find _ _ reply => some (.found reply)
  | .insert _ _ reply => some (.inserted reply)
  | .told _ => none

/-- The event of an exchange. -/
def Exchange.event? : Exchange → Option Event
  | .told e => some e
  | _ => none

/-- The replies in a record, in order. -/
def replies (record : List Exchange) : List StoreReply := record.filterMap Exchange.reply?

/-- The events in a record, in order. -/
def toldIn (record : List Exchange) : List Event := record.filterMap Exchange.event?

section

variable (d : Dictionary) (name : String) (record : List Exchange)

@[simp] theorem replies_cons_find (reply : Except StoreError (Option Int)) :
    replies (.find d name reply :: record) = .found reply :: replies record := rfl

@[simp] theorem replies_cons_insert (reply : Except StoreError Int) :
    replies (.insert d name reply :: record) = .inserted reply :: replies record := rfl

@[simp] theorem replies_cons_told (e : Event) :
    replies (.told e :: record) = replies record := rfl

@[simp] theorem toldIn_cons_find (reply : Except StoreError (Option Int)) :
    toldIn (.find d name reply :: record) = toldIn record := rfl

@[simp] theorem toldIn_cons_insert (reply : Except StoreError Int) :
    toldIn (.insert d name reply :: record) = toldIn record := rfl

@[simp] theorem toldIn_cons_told (e : Event) :
    toldIn (.told e :: record) = e :: toldIn record := rfl

@[simp] theorem replies_nil : replies [] = [] := rfl

@[simp] theorem toldIn_nil : toldIn [] = [] := rfl

end

theorem replies_append (record more : List Exchange) :
    replies (record ++ more) = replies record ++ replies more := List.filterMap_append

theorem toldIn_append (record more : List Exchange) :
    toldIn (record ++ more) = toldIn record ++ toldIn more := List.filterMap_append

theorem replies_map_told (es : List Event) : replies (es.map .told) = [] := by
  rw [replies, List.filterMap_map, List.filterMap_eq_nil_iff]
  exact fun _ _ => rfl

/-! ## Replies played back -/

/-- Replies that are played back one after the other, and what was told meanwhile. -/
structure Tape where
  left : List StoreReply
  events : List Event := []

/-- The store that replies from a tape. It does not look at names. -/
def Tape.names : NameStore Tape where
  find _ _ t :=
    match t.left with
    | .found reply :: left => (reply, { t with left })
    | _ => (.ok none, t)
  insert _ _ t :=
    match t.left with
    | .inserted reply :: left => (reply, { t with left })
    | _ => (.error (.fault .noRow), t)
  tell e t := { t with events := t.events ++ [e] }

section

variable (d : Dictionary) (name : String) (left : List StoreReply) (events : List Event)

@[simp] theorem Tape.find_found (reply : Except StoreError (Option Int)) :
    Tape.names.find d name ⟨.found reply :: left, events⟩ = (reply, ⟨left, events⟩) := rfl

@[simp] theorem Tape.insert_inserted (reply : Except StoreError Int) :
    Tape.names.insert d name ⟨.inserted reply :: left, events⟩ = (reply, ⟨left, events⟩) := rfl

@[simp] theorem Tape.tell_eq (e : Event) :
    Tape.names.tell e ⟨left, events⟩ = ⟨left, events ++ [e]⟩ := rfl

end

namespace NameStore

variable {σ : Type} (S : NameStore σ) (d : Dictionary)

theorem plays_findOrCreate (name other : String) (s : σ) (left : List StoreReply)
    (events : List Event) :
    Tape.names.findOrCreate d other
        ⟨replies (S.recorded.findOrCreate d name (s, [])).2.2 ++ left, events⟩ =
      ((S.findOrCreate d name s).1,
        ⟨left, events ++ toldIn (S.recorded.findOrCreate d name (s, [])).2.2⟩) := by
  rcases hfind : S.find d name s with ⟨found, s₁⟩
  -- the stages look at replies only, so the tape takes the turns that the store took
  rcases found with e | _ | id
  · simp [findOrCreate, recorded, hfind, Stage.afterFind]
  · rcases hinsert : S.insert d name s₁ with ⟨inserted, s₂⟩
    rcases Stage.afterInsert_cases d inserted with ⟨outcome, h⟩ | ⟨h, -⟩
    · simp [findOrCreate, create, recorded, hfind, Stage.afterFind, hinsert, h]
    · rcases hreread : S.find d name (S.tell (.retried d) s₂) with ⟨reply, s₃⟩
      simp [findOrCreate, create, reread, recorded, hfind, Stage.afterFind, hinsert, h, hreread]
  · simp [findOrCreate, recorded, hfind, Stage.afterFind]

/-- What is heard of a name stands between its announcement and its report. -/
theorem heard_eq (name : String) (s : σ) :
    S.heard d name s = .told (.called .resolve) ::
      ((S.recorded.findOrCreate d name (S.tell (.called .resolve) s, [])).2.2 ++
        (report .resolve (raised? (S.resolve d name s).1)).map .told) := by
  obtain ⟨c, -, houtcome, hrecorded⟩ :=
    S.converses_findOrCreate d name (S.tell (.called .resolve) s)
  have hannounced : S.recorded.tell (.called .resolve) (s, []) =
      (S.tell (.called .resolve) s, [.told (.called .resolve)]) := rfl
  rw [heard, resolve, resolve, observed, observed, hannounced, hrecorded, hrecorded]
  revert houtcome
  rcases S.findOrCreate d name (S.tell (.called .resolve) s) with ⟨e | id, s'⟩ <;>
    intro houtcome <;> simp only [← houtcome] <;> simp [recorded, report, raised?]

theorem plays_resolve (name other : String) (s : σ) (left : List StoreReply)
    (events : List Event) :
    Tape.names.resolve d other ⟨replies (S.heard d name s) ++ left, events⟩ =
      ((S.resolve d name s).1, ⟨left, events ++ toldIn (S.heard d name s)⟩) := by
  have hplays := S.plays_findOrCreate d name other (S.tell (.called .resolve) s) left
    (events ++ [.called .resolve])
  have hreplies : replies (S.heard d name s) =
      replies (S.recorded.findOrCreate d name (S.tell (.called .resolve) s, [])).2.2 := by
    rw [heard_eq, replies_cons_told, replies_append, replies_map_told, List.append_nil]
  rw [hreplies, resolve, observed, Tape.tell_eq, hplays, heard_eq, resolve, observed]
  rcases S.findOrCreate d name (S.tell (.called .resolve) s) with ⟨e | id, s'⟩
  · simp [report, raised?, toldIn_append]
  · simp [report, raised?]

/-- A list of names is played back to any list of as many names. -/
theorem plays_resolveEach {list others : List String} (hlength : list.length = others.length)
    (s : σ) (left : List StoreReply) (events : List Event) :
    Tape.names.resolveEach d others
        ⟨replies ((S.runs d list s).flatMap fun r => S.heard d r.name r.start) ++ left, events⟩ =
      ((S.resolveEach d list s).1,
        ⟨left,
          events ++ toldIn ((S.runs d list s).flatMap fun r => S.heard d r.name r.start)⟩) := by
  induction list generalizing others s left events with
  | nil =>
    obtain rfl : others = [] := List.length_eq_zero_iff.mp hlength.symm
    simp [resolveEach, runs]
  | cons name rest ih =>
    cases others with
    | nil => simp at hlength
    | cons other others =>
      rw [runs, List.flatMap_cons, replies_append, toldIn_append, List.append_assoc, resolveEach,
        plays_resolve, resolveEach]
      rcases S.resolve d name s with ⟨e | id, s'⟩
      · simp
      · simp only
        rw [ih (Nat.succ.inj hlength)]
        rcases S.resolveEach d rest s' with ⟨e | ids, s''⟩ <;> simp

/-- What is heard of a list of names. -/
def heardAll (list : List String) (s : σ) : List Exchange :=
  (S.recorded.resolveAll d list (s, [])).2.2

theorem recorded_resolveAll_of_ne_nil {list : List String} (hlist : list ≠ []) (s : σ) :
    S.recorded.resolveAll d list (s, []) =
      ((S.resolveAll d list s).1, (S.resolveAll d list s).2,
        .told (.called .resolveAll) :: (S.runs d list (S.tell (.called .resolveAll) s)).flatMap
          fun r => S.heard d r.name r.start) := by
  rw [resolveAll_of_ne_nil _ _ hlist, resolveAll_of_ne_nil _ _ hlist]
  exact S.recorded_resolveEach d list (S.tell (.called .resolveAll) s)
    [.told (.called .resolveAll)]

/-- The record adds what is heard, and changes nothing. -/
theorem recorded_resolveAll (list : List String) (s : σ) :
    S.recorded.resolveAll d list (s, []) =
      ((S.resolveAll d list s).1, (S.resolveAll d list s).2, S.heardAll d list s) := by
  by_cases hlist : list = []
  · rw [hlist]
    rfl
  · rw [heardAll, recorded_resolveAll_of_ne_nil S d hlist]

theorem plays_resolveAll {list others : List String} (hlength : list.length = others.length)
    (s : σ) (left : List StoreReply) (events : List Event) :
    Tape.names.resolveAll d others ⟨replies (S.heardAll d list s) ++ left, events⟩ =
      ((S.resolveAll d list s).1, ⟨left, events ++ toldIn (S.heardAll d list s)⟩) := by
  by_cases hlist : list = []
  · rw [hlist, List.length_nil, eq_comm, List.length_eq_zero_iff] at hlength
    rw [hlist, hlength]
    simp [heardAll, resolveAll]
  · have hothers : others ≠ [] := by
      rintro rfl
      exact hlist (List.length_eq_zero_iff.mp hlength)
    rw [heardAll, recorded_resolveAll_of_ne_nil S d hlist, replies_cons_told, toldIn_cons_told,
      resolveAll_of_ne_nil _ _ hothers, Tape.tell_eq, S.plays_resolveEach d hlength,
      resolveAll_of_ne_nil _ _ hlist]
    simp

variable {τ : Type} (T : NameStore τ)

/-- The replies decide what a name comes to and what is told of it. -/
theorem resolve_of_replies {name other : String} {s : σ} {t : τ}
    (h : replies (S.heard d name s) = replies (T.heard d other t)) :
    (S.resolve d name s).1 = (T.resolve d other t).1 ∧
      toldIn (S.heard d name s) = toldIn (T.heard d other t) := by
  have hplayed := S.plays_resolve d name name s [] []
  rw [h, T.plays_resolve d other name t [] []] at hplayed
  simpa using hplayed.symm

/-- The replies decide what a list of names comes to and what is told of it. -/
theorem resolveAll_of_replies {list others : List String} (hlength : list.length = others.length)
    {s : σ} {t : τ} (h : replies (S.heardAll d list s) = replies (T.heardAll d others t)) :
    (S.resolveAll d list s).1 = (T.resolveAll d others t).1 ∧
      toldIn (S.heardAll d list s) = toldIn (T.heardAll d others t) := by
  have hplayed := S.plays_resolveAll d (rfl : list.length = list.length) s [] []
  rw [h, T.plays_resolveAll d hlength.symm t [] []] at hplayed
  simpa using hplayed.symm

end NameStore

/-! ## Lines of a call -/

namespace Call

/-- The lines that a call writes between two of its states. -/
def written (requestId : String) (s s' : Call) : List Line :=
  lines true requestId (s'.notes.drop s.notes.length)

theorem written_of_notes {requestId : String} {s s' : Call} {notes : List Note}
    (h : s'.notes = s.notes ++ notes) : written requestId s s' = lines true requestId notes := by
  rw [written, h, List.drop_left]

theorem notes_tell (e : Event) (s : Call) : (s.tell e).notes = s.notes ++ [.event e] := by
  cases e <;> rfl

/-- Telling adds a note and the calls of the store add none, so the notes are what is told. -/
theorem notes_recorded (d : Dictionary) (list : List String) {r : Call × List Exchange}
    {before : List Note} (hr : r.1.notes = before ++ (toldIn r.2).map .event) :
    let r' := (names.recorded.resolveEach d list r).2
    r'.1.notes = before ++ (toldIn r'.2).map .event := by
  refine names.recorded.resolveEach_keeps d
    (P := fun r => r.1.notes = before ++ (toldIn r.2).map .event) ?_ ?_ ?_ list hr
  · rintro e ⟨s, log⟩ (h : s.notes = _)
    show (s.tell e).notes = before ++ (toldIn (log ++ [.told e])).map .event
    rw [notes_tell, h, toldIn_append, List.map_append, List.append_assoc]
    rfl
  · rintro name ⟨s, log⟩ (h : s.notes = _)
    show (s.findId d name).2.notes = before ++ (toldIn (log ++ [.find d name _])).map .event
    rw [findId, notes_ask, h, toldIn_append, toldIn_cons_find, toldIn_nil, List.append_nil]
  · rintro name ⟨s, log⟩ (h : s.notes = _)
    show (s.insertName d name).2.notes = before ++ (toldIn (log ++ [.insert d name _])).map .event
    rw [notes_insertName, h, toldIn_append, toldIn_cons_insert, toldIn_nil, List.append_nil]

theorem notes_resolve (d : Dictionary) (name : String) (s : Call) :
    (s.resolve d name).2.notes = s.notes ++ (toldIn (names.heard d name s)).map .event := by
  have hrun := notes_recorded d [name] (r := (s, [])) (List.append_nil s.notes).symm
  simp only [NameStore.resolveEach_singleton, NameStore.recorded_resolve] at hrun
  exact hrun

theorem notes_resolveAll (d : Dictionary) (list : List String) (s : Call) :
    (s.resolveAll d list).2.notes = s.notes ++ (toldIn (names.heardAll d list s)).map .event := by
  cases list with
  | nil => exact (List.append_nil s.notes).symm
  | cons name rest =>
    have hannounced : (names.recorded.tell (.called .resolveAll) (s, [])).1.notes =
        s.notes ++ (toldIn (names.recorded.tell (.called .resolveAll) (s, [])).2).map .event :=
      notes_tell (.called .resolveAll) s
    have hrun := notes_recorded d (name :: rest) hannounced
    rw [← names.recorded.resolveAll_of_ne_nil d (List.cons_ne_nil name rest),
      NameStore.recorded_resolveAll] at hrun
    exact hrun

/-! ## Searches -/

/-- What a search writes depends on the number of arguments and on how it ended. -/
theorem notes_search (limits : SearchLimits) (c : Search.Criteria) (s : Call) :
    (s.search limits c).2.notes = s.notes ++ .event (.called .search) ::
      match (s.search limits c).1 with
      | .ok page => [.searched (composeWithin limits c).arguments.length page.length]
      | .error e => [.event (.failed .search e)] := by
  have hread := notes_ask ((composeWithin limits c).rows
    (s.tell (.called .search)).connection.foldsCase) (s.tell (.called .search))
  rw [notes_tell] at hread
  rw [search, observed, runSearch]
  generalize (s.tell (.called .search)).ask ((composeWithin limits c).rows
    (s.tell (.called .search)).connection.foldsCase) = r at hread ⊢
  rcases r with ⟨e | rows, s'⟩
  · simp only [during]
    rw [notes_tell, hread]
    simp
  · simp only [during]
    cases Search.summaries rows with
    | error f =>
      simp only
      rw [notes_tell, hread]
      simp
    | ok page =>
      simp only [note]
      rw [hread]
      simp

/-- Two searches end alike: with the same number of rows, or with the same error of the store. -/
inductive EndAlike {α : Type} : Except BoardError (List α) → Except BoardError (List α) → Prop where
  | rows {page other : List α} : page.length = other.length → EndAlike (.ok page) (.ok other)
  | failed {e other : BoardError} : e.source? = other.source? →
      EndAlike (.error e) (.error other)

/-- The error of a search is known by that of the store behind it. -/
theorem eq_of_source {limits limits' : SearchLimits} {c c' : Search.Criteria} {s t : Call}
    {e other : BoardError} (he : (s.search limits c).1 = .error e)
    (hother : (t.search limits' c').1 = .error other) (h : e.source? = other.source?) :
    e = other := by
  obtain ⟨cause, rfl⟩ := error_of_search he
  obtain ⟨cause', rfl⟩ := error_of_search hother
  obtain rfl : cause = cause' := Option.some.inj h
  rfl

/-- The lines of a search depend on the number of arguments and on how it ended. -/
theorem written_search {limits limits' : SearchLimits} {c c' : Search.Criteria} {s t : Call}
    (hcount : (composeWithin limits c).arguments.length =
      (composeWithin limits' c').arguments.length)
    (hend : EndAlike (s.search limits c).1 (t.search limits' c').1) (requestId : String) :
    written requestId s (s.search limits c).2 = written requestId t (t.search limits' c').2 := by
  rw [written_of_notes (notes_search limits c s), written_of_notes (notes_search limits' c' t)]
  generalize hs : (s.search limits c).1 = outcome at hend ⊢
  generalize ht : (t.search limits' c').1 = outcome' at hend ⊢
  cases hend with
  | rows hrows => simp only [hcount, hrows]
  | failed hsource =>
    rw [eq_of_source hs ht hsource]

end Call

/-- Neither the names that are resolved nor the texts, ids and numbers that are searched for have a
part in what is logged. Whatever the names are, the same replies of two stores lead to the same
outcome, the same events and the same lines, for one name and for lists of as many names; so the
lines of a call of the board are the same too. Two searches with as many arguments each that end
with as many rows, or with the same error of the store, write the same lines. -/
theorem log_ignores_names_and_texts {σ τ : Type} (S : NameStore σ) (T : NameStore τ)
    (d : Dictionary) (requestId : String) :
    (∀ name other s t, replies (S.heard d name s) = replies (T.heard d other t) →
      (S.resolve d name s).1 = (T.resolve d other t).1 ∧
      toldIn (S.heard d name s) = toldIn (T.heard d other t) ∧
      (toldIn (S.heard d name s)).map (Event.line requestId) =
        (toldIn (T.heard d other t)).map (Event.line requestId)) ∧
    (∀ list others s t, list.length = others.length →
      replies (S.heardAll d list s) = replies (T.heardAll d others t) →
      (S.resolveAll d list s).1 = (T.resolveAll d others t).1 ∧
      toldIn (S.heardAll d list s) = toldIn (T.heardAll d others t) ∧
      (toldIn (S.heardAll d list s)).map (Event.line requestId) =
        (toldIn (T.heardAll d others t)).map (Event.line requestId)) ∧
    (∀ (name other : String) (s t : Call),
      replies (Call.names.heard d name s) = replies (Call.names.heard d other t) →
      Call.written requestId s (s.resolve d name).2 =
        Call.written requestId t (t.resolve d other).2) ∧
    (∀ (list others : List String) (s t : Call), list.length = others.length →
      replies (Call.names.heardAll d list s) = replies (Call.names.heardAll d others t) →
      Call.written requestId s (s.resolveAll d list).2 =
        Call.written requestId t (t.resolveAll d others).2) ∧
    ∀ (limits limits' : SearchLimits) (c c' : Search.Criteria) (s t : Call),
      (Call.composeWithin limits c).arguments.length =
        (Call.composeWithin limits' c').arguments.length →
      Call.EndAlike (s.search limits c).1 (t.search limits' c').1 →
      Call.written requestId s (s.search limits c).2 =
        Call.written requestId t (t.search limits' c').2 := by
  refine ⟨fun name other s t h => ?_, fun list others s t hlength h => ?_,
    fun name other s t h => ?_, fun list others s t hlength h => ?_,
    fun _ _ _ _ _ _ hcount hend => Call.written_search hcount hend requestId⟩
  · obtain ⟨houtcome, htold⟩ := S.resolve_of_replies d T h
    exact ⟨houtcome, htold, by rw [htold]⟩
  · obtain ⟨houtcome, htold⟩ := S.resolveAll_of_replies d T hlength h
    exact ⟨houtcome, htold, by rw [htold]⟩
  · obtain ⟨-, htold⟩ := Call.names.resolve_of_replies d Call.names h
    rw [Call.written_of_notes (Call.notes_resolve d name s),
      Call.written_of_notes (Call.notes_resolve d other t), htold]
  · obtain ⟨-, htold⟩ := Call.names.resolveAll_of_replies d Call.names hlength h
    rw [Call.written_of_notes (Call.notes_resolveAll d list s),
      Call.written_of_notes (Call.notes_resolveAll d others t), htold]

theorem log_ignores_names_and_texts_sample :
    let clash : StoreError := .refused (.duplicate false "skill" ["name"])
    let s : Scripted := { script := [{ find := some (.ok none) }, { insert := some (.error clash) },
      { find := some (.ok (some 7)) }, { find := some (.error (.abandoned .cancelled)) }] }
    let r := Scripted.names.resolveAll .skill ["go", "sql", "c"] s
    let r' := Scripted.names.resolveAll .skill ["ann", "bob", "ann"] s
    let wizard : Search.Criteria := { freeText := some "wizard" }
    let dragon : Search.Criteria := { freeText := some "dragon" }
    (r.1 = r'.1 ∧ toldIn (Scripted.names.heardAll .skill ["go", "sql", "c"] s) =
        toldIn (Scripted.names.heardAll .skill ["ann", "bob", "ann"] s)) ∧
      r.2.calls ≠ r'.2.calls ∧
      Call.written "r" .sample (Call.sample.search {} wizard).2 =
        Call.written "r" .sample (Call.sample.search {} dragon).2 := by
  intro clash s r r' wizard dragon
  obtain ⟨-, hlists, -, -, hsearches⟩ :=
    log_ignores_names_and_texts Scripted.names Scripted.names .skill "r"
  obtain ⟨houtcome, htold, -⟩ := hlists ["go", "sql", "c"] ["ann", "bob", "ann"] s s rfl rfl
  refine ⟨⟨houtcome, htold⟩, by decide, hsearches {} {} wizard dragon _ _ ?_ ?_⟩
  · decide +kernel
  · have hwizard : (Call.sample.search {} wizard).1 = .ok [] := by decide +kernel
    have hdragon : (Call.sample.search {} dragon).1 = .ok [] := by decide +kernel
    rw [hwizard, hdragon]
    exact .rows rfl

end JobBoard
