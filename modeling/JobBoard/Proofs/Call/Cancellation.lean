import JobBoard.Call.NamedEdges
import JobBoard.Proofs.Call.Guard
import JobBoard.Proofs.Call.Interruption
import JobBoard.Proofs.Call.Request

/-!
# Calls that are cancelled

What a token does to a call. A token that has fired stays fired (`Signal.Later`). A call that starts
with such a token is turned away before its first statement, for the reason of the token
(`TurnedAway`). Whatever a call ends in, the connection does not look at its token any more, and the
end is a cancellation only if the token has fired (`Honest`).
-/

set_option autoImplicit false

namespace JobBoard

open Cancel Observe Search Store

/-! ## Tokens over time -/

namespace Cancel.Signal

/-- A signal later on: a reason to give up stays, or gives way to the caller's own wish. -/
def Later (s s' : Signal) : Prop :=
  ∀ r, s.reason = some r → s'.reason = some r ∨ s'.reason = some .cancelled

variable {s s' s'' : Signal}

theorem Later.refl (s : Signal) : s.Later s := fun _ h => .inl h

theorem Later.trans (h : s.Later s') (h' : s'.Later s'') : s.Later s'' := by
  intro r hr
  rcases h r hr with hr' | hr'
  · exact h' r hr'
  · exact .inr (or_self_iff.1 (h' _ hr'))

theorem later_tick (m : Moment) (s : Signal) : s.Later (s.tick m) := by
  intro r hr
  exact reasonOf_mono (fun h => Bool.or_eq_true_iff.2 (.inl h))
    (fun h => Bool.or_eq_true_iff.2 (.inl h)) hr

theorem later_ticks (m : Moment) (n : Nat) (s : Signal) : s.Later (s.ticks m n) := by
  induction n generalizing s with
  | zero => exact .refl s
  | succ n ih => exact (later_tick m s).trans (ih _)

theorem later_look (l : Look) (s : Signal) : s.Later (l.signal s) :=
  (later_ticks .write l.rows s).trans (later_ticks .look l.number _)

/-- A token that has fired stays fired. -/
theorem Later.fired (h : s.Later s') (hs : s.fired = true) : s'.fired = true := by
  obtain ⟨r, hr⟩ := Option.isSome_iff_exists.1 hs
  rcases h r hr with hr' | hr' <;> simp [Signal.fired, hr']

end Cancel.Signal

namespace Call

variable {α β : Type} {s s' s'' : Call}

@[simp] theorem polled_tell (e : Event) (s : Call) : (s.tell e).polled = s.polled := by
  unfold tell
  split <;> rfl

theorem later_tell (e : Event) (s : Call) : s.signal.Later (s.tell e).signal := by
  unfold tell
  split
  · exact Signal.later_tick .announcement s.signal
  · exact .refl _

/-! ## Turned away -/

/-- A call that was turned away: the connection is as it was, and the error carries the reason for
which the token has fired. -/
inductive TurnedAway (s : Call) : Answered Call α → Prop where
  | intro {context : String} {reason : Reason} {s' : Call}
      (connection : s'.connection = s.connection)
      (later : s.signal.Later s'.signal) (reason_eq : s'.signal.reason = some reason) :
      TurnedAway s (.error (.internal context (some (.abandoned reason))), s')

/-- A check turns a fired token away. -/
theorem check_of_fired (h : s.signal.fired = true) :
    ∃ reason, s.check.1 = .error (.abandoned reason) ∧ s.check.2.signal.reason = some reason := by
  rcases s.check_cases with ⟨r, hr, hcheck⟩ | ⟨hr, -⟩
  · exact ⟨r, hcheck, by rw [signal_check, hr]⟩
  · have hfired := (Signal.later_tick .check s.signal).fired h
    simp [Signal.fired, hr] at hfired

theorem guarded_of_fired (h : s.signal.fired = true) (statement : Call → Stored Call α) :
    ∃ reason s', guarded statement s = (.error (.abandoned reason), s') ∧
      s'.connection = s.connection ∧ s.signal.Later s'.signal ∧ s'.signal.reason = some reason := by
  obtain ⟨reason, hcheck, hreason⟩ := check_of_fired h
  refine ⟨reason, s.check.2, guarded_of_abandoned hcheck statement, connection_check s, ?_, hreason⟩
  rw [signal_check]
  exact Signal.later_tick .check s.signal

theorem turnedAway_during (h : s.signal.fired = true) (a : Activity)
    (statement : Call → Stored Call α) : TurnedAway s (during a (guarded statement s)) := by
  obtain ⟨reason, s', hguarded, hconnection, hlater, hreason⟩ := guarded_of_fired h statement
  rw [hguarded]
  exact .intro hconnection hlater hreason

theorem turnedAway_observed {op : Operation} {run : Call → Answered Call α}
    (hrun : ∀ s : Call, s.signal.fired = true → TurnedAway s (run s)) (h : s.signal.fired = true) :
    TurnedAway s (observed tell op run s) := by
  have htold := later_tell (.called op) s
  have hran := hrun _ (htold.fired h)
  have hconnection := connection_tell (.called op) s
  unfold observed
  generalize s.tell (.called op) = s₁ at *
  generalize run s₁ = r at hran ⊢
  cases hran with
  | intro connection later reason =>
    exact .intro ((connection_tell _ _).trans (connection.trans hconnection)) (htold.trans later)
      reason

theorem turnedAway_resolve (h : s.signal.fired = true) (d : Dictionary) (name : String) :
    TurnedAway s (s.resolve d name) := by
  refine turnedAway_observed (fun s h => ?_) h
  obtain ⟨reason, s', hask, hconnection, hlater, hreason⟩ :
      ∃ reason s', s.ask (idOfName d name) = (.error (.abandoned reason), s') ∧
        s'.connection = s.connection ∧ s.signal.Later s'.signal ∧
          s'.signal.reason = some reason := guarded_of_fired h _
  rw [NameStore.findOrCreate, show names.find d name s = _ from hask]
  exact .intro hconnection hlater hreason

theorem TurnedAway.of_told {e : Event} {r : Answered Call α} (hr : TurnedAway (s.tell e) r) :
    TurnedAway s r := by
  cases hr with
  | intro connection later reason =>
    exact .intro (connection.trans (connection_tell e s)) ((later_tell e s).trans later) reason

theorem turnedAway_resolveAll (h : s.signal.fired = true) (d : Dictionary) {list : List String}
    (hlist : list ≠ []) : TurnedAway s (s.resolveAll d list) := by
  cases list with
  | nil => exact absurd rfl hlist
  | cons name rest =>
    refine TurnedAway.of_told (e := .called .resolveAll) ?_
    have hfirst : TurnedAway _ (names.resolve d name (s.tell (.called .resolveAll))) :=
      turnedAway_resolve ((later_tell _ s).fired h) d name
    show TurnedAway _ (names.resolveEach d (name :: rest) (s.tell (.called .resolveAll)))
    rw [NameStore.resolveEach]
    generalize names.resolve d name (s.tell (.called .resolveAll)) = r at hfirst ⊢
    cases hfirst with
    | intro connection later reason => exact .intro connection later reason

theorem turnedAway_getById (h : s.signal.fired = true) (d : Dictionary) (id : Int) :
    TurnedAway s (s.getById d id) := by
  refine turnedAway_observed (fun s h => ?_) h
  have hread : TurnedAway s (during (.getOne d) (s.ask (entryOfId d id))) := turnedAway_during h _ _
  generalize during (.getOne d) (s.ask (entryOfId d id)) = r at hread ⊢
  cases hread with
  | intro connection later reason => exact .intro connection later reason

theorem turnedAway_getByIds (h : s.signal.fired = true) (d : Dictionary) {ids : List Int}
    (hids : ids ≠ []) : TurnedAway s (s.getByIds d ids) := by
  cases ids with
  | nil => exact absurd rfl hids
  | cons id rest => exact turnedAway_observed (fun s h => turnedAway_during h _ _) h

theorem turnedAway_listAll (h : s.signal.fired = true) (d : Dictionary) :
    TurnedAway s (s.listAll d) :=
  turnedAway_observed (fun _ h => turnedAway_during h _ _) h

theorem turnedAway_findIdsByNames (h : s.signal.fired = true) (d : Dictionary) {list : List String}
    (hlist : list ≠ []) : TurnedAway s (s.findIdsByNames d list) := by
  cases list with
  | nil => exact absurd rfl hlist
  | cons name rest =>
    simp only [findIdsByNames]
    refine turnedAway_observed (fun s h => ?_) h
    have hread : TurnedAway s
        (during (.findNames d) (s.ask (entriesOfNames d (firstsBy id [] (name :: rest))))) :=
      turnedAway_during h _ _
    generalize during (.findNames d) _ = r at hread ⊢
    cases hread with
    | intro connection later reason => exact .intro connection later reason

theorem turnedAway_listForOwner (h : s.signal.fired = true) (k : EdgeKind) (owner : Int) :
    TurnedAway s (s.listForOwner k owner) :=
  turnedAway_observed (fun _ h => turnedAway_during h _ _) h

theorem turnedAway_clearOwner (h : s.signal.fired = true) (k : EdgeKind) (owner : Int) :
    TurnedAway s (s.clearOwner k owner) :=
  turnedAway_observed (fun _ h => turnedAway_during h _ _) h

theorem turnedAway_associate (h : s.signal.fired = true) (k : EdgeKind) (owner : Int)
    {ids : List Int} (hids : ids ≠ []) : TurnedAway s (s.associate k owner ids) := by
  cases ids with
  | nil => exact absurd rfl hids
  | cons id rest =>
    refine turnedAway_observed (fun s h => ?_) h
    obtain ⟨reason, hcheck, hreason⟩ := check_of_fired h
    rw [insertEdges]
    have hstart : during (.start k) s.check =
        (.error (.internal (Activity.start k).text (some (.abandoned reason))), s.check.2) :=
      Prod.ext (during_of_error _ hcheck) (state_during _ _)
    rw [hstart]
    refine .intro (connection_check s) ?_ hreason
    rw [signal_check]
    exact Signal.later_tick .check s.signal

theorem turnedAway_attachNames (h : s.signal.fired = true) (k : EdgeKind) (owner : Int)
    {list : List String} (hlist : normalizeNames list ≠ []) :
    TurnedAway s (s.attachNames k owner list) := by
  have hresolve := turnedAway_resolveAll h k.dictionary hlist
  unfold attachNames
  split
  · rename_i hnil
    exact absurd hnil hlist
  · generalize s.resolveAll k.dictionary (normalizeNames list) = r at hresolve ⊢
    cases hresolve with
    | intro connection later reason => exact .intro connection later reason

theorem turnedAway_replaceNames (h : s.signal.fired = true) (k : EdgeKind) (owner : Int)
    (list : List String) : TurnedAway s (s.replaceNames k owner list) := by
  have hclear := turnedAway_clearOwner h k owner
  unfold replaceNames
  generalize s.clearOwner k owner = r at hclear ⊢
  cases hclear with
  | intro connection later reason => exact .intro connection later reason

theorem turnedAway_search (h : s.signal.fired = true) (limits : SearchLimits) (c : Criteria) :
    TurnedAway s (s.search limits c) := by
  refine turnedAway_observed (fun s h => ?_) h
  have hread : TurnedAway s
      (during .search (s.ask ((composeWithin limits c).rows s.connection.foldsCase))) :=
    turnedAway_during h _ _
  unfold runSearch
  generalize during .search _ = r at hread ⊢
  cases hread with
  | intro connection later reason => exact .intro connection later reason

theorem turnedAway_searchFor (h : s.signal.fired = true) (limits : SearchLimits)
    {r : SearchRequest} {employment : List Employment} {experience : List Experience}
    (hvalid : r.validate = .ok (employment, experience)) : TurnedAway s (s.searchFor limits r) := by
  by_cases hnames : normalizeNames r.specializations = []
  · rw [searchFor_of_unnamed hvalid hnames]
    exact turnedAway_search h limits _
  · have hlooked := turnedAway_findIdsByNames h .specialization hnames
    have hcases := searchFor_named_cases limits hvalid hnames s
    generalize s.findIdsByNames .specialization (normalizeNames r.specializations) = looked
      at hlooked hcases
    cases hlooked with
    | intro connection later reason =>
      rcases hcases with ⟨e, he, heq⟩ | ⟨hok, -⟩ | ⟨ids, -, hok, -⟩
      · rw [heq, ← Except.error.inj he]
        exact .intro connection later reason
      · exact nomatch hok
      · exact nomatch hok

/-! ## Honest ends -/

/-- From one state of a call to a later one: if the connection looked at no token before, it looks
at none then, and the token is the same one later on. -/
structure Follows (s s' : Call) : Prop where
  polled : s.polled = none → s'.polled = none
  later : s.signal.Later s'.signal

theorem Follows.refl (s : Call) : s.Follows s := ⟨id, .refl _⟩

theorem Follows.trans (h : s.Follows s') (h' : s'.Follows s'') : s.Follows s'' :=
  ⟨fun hs => h'.polled (h.polled hs), h.later.trans h'.later⟩

theorem follows_tell (e : Event) (s : Call) : s.Follows (s.tell e) :=
  ⟨fun hs => (polled_tell e s).trans hs, later_tell e s⟩

/-- A reply of the store is a cancellation only if the token has fired. -/
def HonestlyStored (s : Call) (r : Stored Call α) : Prop :=
  s.Follows r.2 ∧ ∀ e, r.1 = .error e → e.isCancellation = true → r.2.signal.fired = true

/-- A call ends in a cancellation only if its token has fired. -/
def Honest (s : Call) (r : Answered Call α) : Prop :=
  s.Follows r.2 ∧ ∀ context e, r.1 = .error (.internal context (some e)) →
    e.isCancellation = true → r.2.signal.fired = true

theorem Honest.of_ok (a : α) (h : s.Follows s') : Honest s (.ok a, s') :=
  ⟨h, fun _ _ he => nomatch he⟩

/-- An error is handed on as it is. -/
theorem Honest.of_error {e : BoardError} (h : Honest s ((.error e, s') : Answered Call α)) :
    Honest s ((.error e, s') : Answered Call β) :=
  ⟨h.1, fun context source he => h.2 context source (by rw [Except.error.inj he])⟩

theorem Honest.trans {r : Answered Call α} (h' : Honest s' r) (h : s.Follows s') : Honest s r :=
  ⟨h.trans h'.1, h'.2⟩

/-- A refusal is honest unless it is an interruption. -/
theorem honest_refused {cause : Refusal} (hcause : cause ≠ .interrupted) (h : s.Follows s') :
    HonestlyStored s ((.error (.refused cause), s') : Stored Call α) := by
  refine ⟨h, fun e he hcancelled => ?_⟩
  obtain rfl := Except.error.inj he
  exact absurd ((StoreError.isCancellation_refused_iff cause).1 hcancelled) hcause

/-- An internal error is as honest as its source. -/
theorem honest_internal {e : StoreError} (context : String)
    (h : HonestlyStored s ((.error e, s') : Stored Call α)) :
    Honest s ((.error (.internal context (some e)), s') : Answered Call β) := by
  refine ⟨h.1, fun context' source he => ?_⟩
  obtain ⟨-, rfl⟩ : context = context' ∧ e = source := by simpa using he
  exact h.2 e rfl

theorem honest_internal_refused {cause : Refusal} (context : String) (hcause : cause ≠ .interrupted)
    (h : s.Follows s') :
    Honest s ((.error (.internal context (some (.refused cause))), s') : Answered Call α) := by
  have hstored : HonestlyStored s ((.error (.refused cause), s') : Stored Call Unit) :=
    honest_refused hcause h
  exact honest_internal context hstored

theorem honest_during {r : Stored Call α} (h : HonestlyStored s r) (a : Activity) :
    Honest s (during a r) := by
  rcases r with ⟨e | x, s'⟩
  · exact honest_internal a.text h
  · exact .of_ok x h.1

theorem honest_ofFailedWrite {e : StoreError} (context : String)
    (h : HonestlyStored s ((.error e, s') : Stored Call α)) :
    Honest s ((.error (.ofFailedWrite context e), s') : Answered Call β) := by
  unfold BoardError.ofFailedWrite
  split
  · exact ⟨h.1, fun context source he => by simp at he⟩
  · exact honest_internal context h

theorem honest_observed {op : Operation} {run : Call → Answered Call α}
    (hrun : ∀ s, Honest s (run s)) (s : Call) : Honest s (observed tell op run s) := by
  have hran := (hrun (s.tell (.called op))).trans (follows_tell (.called op) s)
  unfold observed
  generalize run (s.tell (.called op)) = r at hran ⊢
  rcases r with ⟨e | a, s'⟩
  · exact ⟨hran.1.trans (follows_tell (.failed op e) s'), hran.2⟩
  · exact hran

/-! ## Guarded statements -/

@[simp] theorem polled_check (s : Call) : s.check.2.polled = s.polled := by
  unfold check
  simp only
  split <;> rfl

theorem follows_check (s : Call) : s.Follows s.check.2 :=
  ⟨fun hs => (polled_check s).trans hs, signal_check s ▸ Signal.later_tick .check s.signal⟩

theorem honest_check (s : Call) : HonestlyStored s s.check := by
  refine ⟨follows_check s, fun e he _ => ?_⟩
  rcases s.check_cases with ⟨r, hr, -⟩ | ⟨-, hok⟩
  · simp [Signal.fired, hr]
  · simp [hok] at he

/-- A guarded statement is as honest as the statement is while the connection looks at the token,
and afterwards the connection does not look at it any more. -/
theorem honest_guarded {statement : Call → Stored Call α}
    (hstatement : ∀ s, s.polled = some s.signal → s.signal.fired = false →
      s.signal.Later (statement s).2.signal ∧ ∀ e, (statement s).1 = .error e →
        e.isCancellation = true → (statement s).2.signal.fired = true) (s : Call) :
    HonestlyStored s (guarded statement s) := by
  have hchecked := honest_check s
  rcases hcheck : s.check with ⟨e | u, s'⟩
  · have herror : s.check.1 = .error e := by rw [hcheck]
    rw [guarded_of_abandoned herror]
    refine ⟨hchecked.1, fun e' he' => hchecked.2 e' ?_⟩
    obtain rfl := Except.error.inj he'
    exact herror
  · have hlive : s.check.1 = .ok () := by rw [hcheck]
    have hquiet : s.polling.signal.fired = false := by
      rcases s.check_cases with ⟨r, -, herror⟩ | ⟨hreason, -⟩
      · simp [hlive] at herror
      · simp [polling, Signal.fired, hreason]
    obtain ⟨hlater, hcancelled⟩ := hstatement s.polling rfl hquiet
    rw [guarded_of_live hlive]
    exact ⟨⟨fun _ => rfl, hchecked.1.later.trans hlater⟩, hcancelled⟩

theorem honest_ask {q : Query α} (hq : q.Uninterrupted) (s : Call) :
    HonestlyStored s (s.ask q) := by
  refine honest_guarded (fun s hpolled hquiet => ?_) s
  have hread := s.connection.read_ne_interrupted hq
  simp only [hpolled, Option.any_some, hquiet, Bool.false_eq_true, if_false]
  rcases hr : s.connection.read q with ⟨cause | a, c⟩
  · have hcause : cause ≠ .interrupted := by simpa [hr] using hread
    exact ⟨.refl _, (honest_refused hcause (.refl s)).2⟩
  · exact ⟨.refl _, fun e he => nomatch he⟩

theorem honest_change {p : Prepared} {handsBack : α → Bool} {u : Update α} (hu : u.Uninterrupted)
    (s : Call) : HonestlyStored s (s.change p handsBack u) := by
  refine honest_guarded (fun s hpolled _ => ?_) s
  have hwrite := s.connection.write_ne_interrupted handsBack hu
  simp only [hpolled]
  split
  · rename_i l hl
    have hfired : (l.signal s.signal).fired = true :=
      List.find?_some (p := fun l : Look => (l.signal s.signal).fired) hl
    exact ⟨Signal.later_look l s.signal, fun _ _ _ => hfired⟩
  · generalize Work.looks _ _ _ = looks
    refine ⟨?_, fun e he hcancelled => ?_⟩
    · rw [signal_perform]
      exact (Signal.later_ticks .look looks.length s.signal).trans (Signal.later_ticks .write _ _)
    rw [(connection_perform handsBack u _).2] at he
    have herror : (s.connection.write handsBack u).answer.mapError .refused = .error e := he
    cases hanswer : (s.connection.write handsBack u).answer with
    | ok a => simp [hanswer, Except.mapError] at herror
    | error cause =>
      obtain rfl : StoreError.refused cause = e := by simpa [hanswer, Except.mapError] using herror
      have hinterrupted := (StoreError.isCancellation_refused_iff cause).1 hcancelled
      simp [hanswer, hinterrupted] at hwrite

/-! ## Honest calls -/

theorem honest_findId (d : Dictionary) (name : String) (s : Call) :
    HonestlyStored s (s.findId d name) :=
  honest_ask (uninterrupted_ofEntries d 1 _) s

theorem honest_insertName (d : Dictionary) (name : String) (s : Call) :
    HonestlyStored s (s.insertName d name) := by
  have hinsert : HonestlyStored s
      (s.change (.entry d) Option.isSome (insertEntry s.connection.ignoresRules d name)) :=
    honest_change (uninterrupted_insertEntry _ d name) s
  unfold insertName
  generalize s.change (.entry d) Option.isSome (insertEntry s.connection.ignoresRules d name) = r
    at hinsert ⊢
  rcases r with ⟨e | _ | id, s'⟩
  · refine ⟨hinsert.1, fun e' he' => hinsert.2 e' ?_⟩
    obtain rfl := Except.error.inj he'
    rfl
  · refine ⟨hinsert.1, fun e he hcancelled => ?_⟩
    obtain rfl := Except.error.inj he
    exact nomatch hcancelled
  · exact ⟨hinsert.1, fun e he => nomatch he⟩

theorem honest_reread (d : Dictionary) (name : String) (s : Call) :
    Honest s (names.reread d name s) := by
  have hfind := honest_findId d name (s.tell (.retried d))
  refine Honest.trans ?_ (follows_tell (.retried d) s)
  show Honest _ (Stage.afterReread d ((s.tell (.retried d)).findId d name).1,
    ((s.tell (.retried d)).findId d name).2)
  generalize (s.tell (.retried d)).findId d name = r at hfind ⊢
  rcases r with ⟨e | _ | id, s'⟩
  · exact honest_internal _ hfind
  · exact ⟨hfind.1, fun context e he => by simp [Stage.afterReread] at he⟩
  · exact .of_ok id hfind.1

theorem honest_create (d : Dictionary) (name : String) (s : Call) :
    Honest s (names.create d name s) := by
  have hinsert : HonestlyStored s (names.insert d name s) := honest_insertName d name s
  rw [NameStore.create]
  generalize names.insert d name s = r at hinsert ⊢
  rcases r with ⟨e | id, s'⟩
  · simp only [Stage.afterInsert]
    split
    · rename_i outcome houtcome
      split at houtcome
      · cases houtcome
      · obtain rfl := Stage.finished.inj houtcome
        exact honest_ofFailedWrite _ hinsert
    · exact (honest_reread d name s').trans hinsert.1
  · exact .of_ok id hinsert.1

theorem honest_resolve (d : Dictionary) (name : String) (s : Call) :
    Honest s (s.resolve d name) := by
  refine honest_observed (fun s => ?_) s
  have hfind : HonestlyStored s (names.find d name s) := honest_findId d name s
  rw [NameStore.findOrCreate]
  generalize names.find d name s = r at hfind ⊢
  rcases r with ⟨e | _ | id, s'⟩
  · exact honest_internal _ hfind
  · exact (honest_create d name s').trans hfind.1
  · exact .of_ok id hfind.1

theorem honest_resolveEach (d : Dictionary) (list : List String) (s : Call) :
    Honest s (names.resolveEach d list s) := by
  induction list generalizing s with
  | nil => exact .of_ok [] (.refl s)
  | cons name rest ih =>
    have hfirst : Honest s (names.resolve d name s) := honest_resolve d name s
    rw [NameStore.resolveEach]
    generalize names.resolve d name s = r at hfirst ⊢
    rcases r with ⟨e | id, s₁⟩
    · exact hfirst.of_error
    · have hrest := (ih s₁).trans hfirst.1
      simp only
      generalize names.resolveEach d rest s₁ = r at hrest ⊢
      rcases r with ⟨e | ids, s₂⟩
      · exact hrest.of_error
      · exact .of_ok _ hrest.1

theorem honest_resolveAll (d : Dictionary) (list : List String) (s : Call) :
    Honest s (s.resolveAll d list) := by
  cases list with
  | nil => exact .of_ok [] (.refl s)
  | cons name rest => exact (honest_resolveEach d _ _).trans (follows_tell (.called .resolveAll) s)

theorem honest_getById (d : Dictionary) (id : Int) (s : Call) : Honest s (s.getById d id) := by
  refine honest_observed (fun s => ?_) s
  have hread : Honest s (during (.getOne d) (s.ask (entryOfId d id))) :=
    honest_during (honest_ask (uninterrupted_ofEntries d 1 _) s) _
  generalize during (.getOne d) (s.ask (entryOfId d id)) = r at hread ⊢
  rcases r with ⟨e | _ | entry, s'⟩
  · exact hread.of_error
  · exact ⟨hread.1, fun context e he => nomatch Except.error.inj he⟩
  · exact .of_ok entry hread.1

theorem honest_getByIds (d : Dictionary) (ids : List Int) (s : Call) :
    Honest s (s.getByIds d ids) := by
  cases ids with
  | nil => exact .of_ok [] (.refl s)
  | cons id rest =>
    refine honest_observed (fun s => ?_) s
    exact honest_during (honest_ask (uninterrupted_ofEntries d _ _) s) _

theorem honest_listAll (d : Dictionary) (s : Call) : Honest s (s.listAll d) :=
  honest_observed (fun s => honest_during (honest_ask (uninterrupted_ofEntries d _ _) s) _) s

theorem honest_listForOwner (k : EdgeKind) (owner : Int) (s : Call) :
    Honest s (s.listForOwner k owner) :=
  honest_observed
    (fun s => honest_during (honest_ask (uninterrupted_entriesOfOwner k owner) s) _) s

theorem honest_clearOwner (k : EdgeKind) (owner : Int) (s : Call) :
    Honest s (s.clearOwner k owner) :=
  honest_observed
    (fun s => honest_during (honest_change (uninterrupted_clearEdges k owner) s) _) s

theorem honest_findIdsByNames (d : Dictionary) (list : List String) (s : Call) :
    Honest s (s.findIdsByNames d list) := by
  cases list with
  | nil => exact .of_ok [] (.refl s)
  | cons name rest =>
    simp only [findIdsByNames]
    refine honest_observed (fun s => ?_) s
    have hread : Honest s
        (during (.findNames d) (s.ask (entriesOfNames d (firstsBy id [] (name :: rest))))) :=
      honest_during (honest_ask (uninterrupted_ofEntries d _ _) s) _
    generalize during (.findNames d) _ = r at hread ⊢
    rcases r with ⟨e | found, s'⟩
    · exact hread.of_error
    · exact .of_ok _ hread.1

/-- Rows that cannot be read are no interruption. -/
theorem not_isInterrupt_of_summaries {rows : List Joined} {f : StoreFault}
    (h : summaries rows = .error f) : f.isInterrupt = false := by
  rcases summaries_cases rows with ⟨ms, hms, -⟩ | ⟨_, _, _, f', -, -, hgarbled, hf'⟩
  · rw [hms] at h
    cases h
  · obtain rfl := Except.error.inj (hf'.symm.trans h)
    exact hgarbled.not_isInterrupt

theorem honest_search (limits : SearchLimits) (c : Criteria) (s : Call) :
    Honest s (s.search limits c) := by
  refine honest_observed (fun s => ?_) s
  have hread : Honest s
      (during .search (s.ask ((composeWithin limits c).rows s.connection.foldsCase))) :=
    honest_during (honest_ask (uninterrupted_rows _ _) s) _
  unfold runSearch
  generalize during .search _ = r at hread ⊢
  rcases r with ⟨e | rows, s'⟩
  · exact hread.of_error
  · simp only
    split
    · rename_i f hf
      refine ⟨hread.1, fun context e he hcancelled => ?_⟩
      obtain ⟨-, rfl⟩ : Activity.search.text = context ∧ StoreError.fault f = e := by simpa using he
      rw [show (StoreError.fault f).isCancellation = f.isInterrupt from rfl,
        not_isInterrupt_of_summaries hf] at hcancelled
      exact nomatch hcancelled
    · exact .of_ok _ (hread.1.trans ⟨id, .refl _⟩)

theorem honest_searchFor (limits : SearchLimits) (r : SearchRequest) (s : Call) :
    Honest s (s.searchFor limits r) := by
  rcases r.validate_cases with ⟨-, message, hfaulty⟩ | ⟨-, employment, experience, hvalid, -⟩
  · rw [searchFor_of_error hfaulty]
    exact ⟨.refl s, fun context e he => nomatch Except.error.inj he⟩
  · by_cases hnames : normalizeNames r.specializations = []
    · rw [searchFor_of_unnamed hvalid hnames]
      exact honest_search limits _ s
    · have hlooked := honest_findIdsByNames .specialization (normalizeNames r.specializations) s
      have hcases := searchFor_named_cases limits hvalid hnames s
      generalize s.findIdsByNames .specialization (normalizeNames r.specializations) = looked
        at hlooked hcases
      rcases looked with ⟨outcome, s'⟩
      rcases hcases with ⟨e, he, heq⟩ | ⟨-, heq⟩ | ⟨ids, -, -, heq⟩ <;> rw [heq]
      · obtain rfl : outcome = .error e := he
        exact hlooked.of_error
      · exact .of_ok [] hlooked.1
      · exact (honest_search limits _ s').trans hlooked.1

theorem honest_addEach (k : EdgeKind) (owner : Int) (ids : List Int) (skipped : Nat) (s : Call) :
    Honest s (s.addEach k owner ids skipped) := by
  induction ids generalizing skipped s with
  | nil => exact .of_ok skipped (.refl s)
  | cons id rest ih =>
    have hfirst : HonestlyStored s (s.change .edge (fun _ => false)
        (insertEdge s.connection.ignoresRules k ⟨owner, id⟩)) :=
      honest_change (uninterrupted_insertEdge _ k _) s
    rw [addEach]
    generalize s.change .edge (fun _ => false)
      (insertEdge s.connection.ignoresRules k ⟨owner, id⟩) = r at hfirst ⊢
    rcases r with ⟨e | u, s'⟩
    · simp only
      split
      · exact (ih _ s').trans hfirst.1
      · exact honest_ofFailedWrite _ hfirst
    · exact (ih skipped s').trans hfirst.1

theorem honest_addAll (k : EdgeKind) (owner : Int) (ids : List Int) (s : Call) :
    Honest s (s.addAll k owner ids) := by
  have hobstacle := edgeObstacle?_ne_interrupted s.connection.view k
  have hadded : Honest s ((s.prepare .edge).addEach k owner ids 0) :=
    (honest_addEach k owner ids 0 (s.prepare .edge)).trans ⟨id, .refl _⟩
  unfold addAll
  split
  · rename_i cause hcause
    have hordinary : cause ≠ .interrupted := by simpa [hcause] using hobstacle
    exact honest_internal_refused _ hordinary (.refl s)
  · generalize (s.prepare .edge).addEach k owner ids 0 = r at hadded ⊢
    rcases r with ⟨e | skipped, s'⟩
    · exact hadded
    · have hchecked := (honest_during (honest_check s') (.finish k)).trans hadded.1
      simp only
      generalize during (.finish k) s'.check = r at hchecked ⊢
      rcases r with ⟨e | u, s''⟩
      · exact hchecked.of_error
      · exact .of_ok skipped hchecked.1

theorem follows_undoEdges (s : Call) : s.Follows s.undoEdges := by
  unfold undoEdges
  split
  · exact ⟨id, .refl _⟩
  · exact ⟨id, .refl _⟩

theorem honest_commitEdges (k : EdgeKind) (requested skipped : Nat) (s : Call) :
    Honest s (s.commitEdges k requested skipped) := by
  have hcommit := s.connection.commit_ne_interrupted
  unfold commitEdges
  split
  · exact .of_ok () ⟨id, .refl _⟩
  · rename_i cause c heq
    have hordinary : cause ≠ .interrupted := by simpa [heq] using hcommit
    exact honest_internal_refused _ hordinary ⟨id, .refl _⟩

theorem honest_insertEdges (k : EdgeKind) (owner : Int) (ids : List Int) (s : Call) :
    Honest s (s.insertEdges k owner ids) := by
  have hchecked := honest_during (honest_check s) (.start k)
  unfold insertEdges
  generalize during (.start k) s.check = r at hchecked ⊢
  rcases r with ⟨e | u, s₁⟩
  · exact hchecked
  · refine Honest.trans ?_ hchecked.1
    have hbegin := s₁.connection.begin_ne_interrupted
    simp only
    split
    · rename_i cause c heq
      have hordinary : cause ≠ .interrupted := by simpa [heq] using hbegin
      exact honest_internal_refused _ hordinary ⟨id, .refl _⟩
    · rename_i c heq
      have hadded : Honest s₁ ({ s₁ with connection := c }.addAll k owner ids) :=
        (honest_addAll k owner ids _).trans ⟨id, .refl _⟩
      generalize { s₁ with connection := c }.addAll k owner ids = r at hadded ⊢
      rcases r with ⟨e | skipped, s₂⟩
      -- whatever stopped the transaction is what the caller hears of
      · exact ⟨hadded.1.trans (follows_undoEdges s₂), fun context source he hcancelled =>
          (follows_undoEdges s₂).later.fired (hadded.2 context source (by rw [Except.error.inj he])
            hcancelled)⟩
      · exact (honest_commitEdges k _ skipped s₂).trans hadded.1

theorem honest_associate (k : EdgeKind) (owner : Int) (ids : List Int) (s : Call) :
    Honest s (s.associate k owner ids) := by
  cases ids with
  | nil => exact .of_ok () (.refl s)
  | cons id rest => exact honest_observed (fun s => honest_insertEdges k owner (id :: rest) s) s

theorem honest_attachNames (k : EdgeKind) (owner : Int) (list : List String) (s : Call) :
    Honest s (s.attachNames k owner list) := by
  unfold attachNames
  split
  · exact .of_ok [] (.refl s)
  · have hresolve := honest_resolveAll k.dictionary (normalizeNames list) s
    generalize s.resolveAll k.dictionary (normalizeNames list) = r at hresolve ⊢
    rcases r with ⟨e | ids, s'⟩
    · exact hresolve
    · have hassociate := (honest_associate k owner ids s').trans hresolve.1
      simp only
      generalize s'.associate k owner ids = r at hassociate ⊢
      rcases r with ⟨e | u, s''⟩
      · exact hassociate.of_error
      · exact .of_ok ids hassociate.1

theorem honest_replaceNames (k : EdgeKind) (owner : Int) (list : List String) (s : Call) :
    Honest s (s.replaceNames k owner list) := by
  have hclear := honest_clearOwner k owner s
  unfold replaceNames
  generalize s.clearOwner k owner = r at hclear ⊢
  rcases r with ⟨e | n, s'⟩
  · exact hclear.of_error
  · exact (honest_attachNames k owner list s').trans hclear.1

end Call

end JobBoard
