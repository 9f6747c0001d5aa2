import JobBoard.Call.Basic
import JobBoard.Proofs.Store.Consistency
import JobBoard.Proofs.Store.Transactions
import JobBoard.Proofs.Store.Work

/-!
# Guarded statements

What a guarded statement leaves behind, whatever the token does. A statement that is given up is a
cancellation, and it undoes itself unless it is settled by then; otherwise the outcome is that of
the statement (`change_cases`).
Outside a transaction every part of a call leads from tables to tables by elementary changes, with
the settings of the connection as they were and no transaction open (`Leads`).
-/

set_option autoImplicit false

namespace JobBoard

open Cancel Observe Store

/-! ## Live tokens -/

namespace Cancel.Signal

/-- A token that has not fired and will not fire, whatever moments pass. -/
def Live (s : Signal) : Prop := ∀ ms : List Moment, (ms.foldl (fun s m => s.tick m) s).reason = none

theorem Live.tick {s : Signal} (h : s.Live) (m : Moment) : (s.tick m).Live :=
  fun ms => h (m :: ms)

theorem live_of_quiet {s : Signal} (hreason : s.reason = none) (halarms : s.alarms = []) :
    s.Live := by
  intro ms
  induction ms generalizing s with
  | nil => exact hreason
  | cons m rest ih =>
    rw [List.foldl_cons]
    have htick : s.tick m = s := by
      unfold Signal.tick
      simp only [halarms, List.filter_nil, List.any_nil, Bool.or_false, List.filterMap_nil]
      rw [← halarms]
    rw [htick]
    exact ih hreason halarms

end Cancel.Signal

namespace Call

variable {α β : Type}

/-! ## Connections under a guard -/

@[simp] theorem connection_note (n : Note) (s : Call) : (s.note n).connection = s.connection := rfl

@[simp] theorem connection_tell (e : Event) (s : Call) : (s.tell e).connection = s.connection := by
  unfold tell
  split <;> rfl

@[simp] theorem connection_check (s : Call) : s.check.2.connection = s.connection := by
  unfold check
  simp only
  split <;> rfl

/-- A check either lets the call go on or gives it up for the reason of its token. -/
theorem check_cases (s : Call) :
    (∃ r, (s.signal.tick .check).reason = some r ∧ s.check.1 = .error (.abandoned r)) ∨
      ((s.signal.tick .check).reason = none ∧ s.check.1 = .ok ()) := by
  unfold check
  simp only
  split
  · rename_i r hr
    exact .inl ⟨r, hr, rfl⟩
  · rename_i hr
    exact .inr ⟨hr, rfl⟩

/-- A live token lets the call go on. -/
theorem check_of_live {s : Call} (h : s.signal.Live) : s.check.1 = .ok () := by
  rcases s.check_cases with ⟨r, hr, -⟩ | ⟨-, hcheck⟩
  · have hnone := h [.check]
    rw [List.foldl_cons, List.foldl_nil] at hnone
    rw [hnone] at hr
    exact nomatch hr
  · exact hcheck

theorem live_tell {s : Call} (h : s.signal.Live) (e : Event) : (s.tell e).signal.Live := by
  unfold tell
  split
  · exact h.tick .announcement
  · exact h

/-! ## Under the token -/

@[simp] theorem signal_check (s : Call) : s.check.2.signal = s.signal.tick .check := by
  unfold check
  simp only
  split <;> rfl

theorem guarded_of_abandoned {s : Call} {e : StoreError} (h : s.check.1 = .error e)
    (statement : Call → Stored Call α) : guarded statement s = (.error e, s.check.2) := by
  unfold guarded
  rcases hcheck : s.check with ⟨outcome, s'⟩
  simp only [hcheck] at h
  subst h
  rfl

/-- The call while the connection looks at its token. -/
def polling (s : Call) : Call := { s.check.2 with polled := some s.check.2.signal }

@[simp] theorem connection_polling (s : Call) : s.polling.connection = s.connection :=
  connection_check s

@[simp] theorem taken_polling (s : Call) : s.polling.taken = s.taken := by
  unfold polling check
  simp only
  split <;> rfl

theorem guarded_of_live {s : Call} (h : s.check.1 = .ok ()) (statement : Call → Stored Call α) :
    guarded statement s =
      ((statement s.polling).1, { (statement s.polling).2 with polled := none }) := by
  unfold guarded polling
  rcases hcheck : s.check with ⟨outcome, s'⟩
  simp only [hcheck] at h
  subst h
  rfl

/-! ## Reading -/

theorem ask_of_abandoned {s : Call} {e : StoreError} (h : s.check.1 = .error e) (q : Query α) :
    s.ask q = (.error e, s.check.2) :=
  guarded_of_abandoned h _

theorem ask_of_live {s : Call} (h : s.check.1 = .ok ()) (q : Query α) :
    s.ask q = ((s.connection.read q).1.mapError .refused,
      { s.check.2 with connection := (s.connection.read q).2, polled := none }) := by
  have hquiet : (s.polling.polled.any Signal.fired) = false := by
    rcases s.check_cases with ⟨r, -, hcheck⟩ | ⟨hreason, -⟩
    · simp [hcheck] at h
    · simp [polling, Signal.fired, hreason]
  rw [ask, guarded_of_live h]
  simp only [hquiet, connection_polling, Bool.false_eq_true, if_false]
  rcases s.connection.read q with ⟨_ | a, c⟩ <;> rfl

/-- With a live token, and nobody in the way, a question is answered. -/
theorem answer_ask {s : Call} (hlive : s.signal.Live) (hreadable : s.connection.readable = true)
    (hfree : s.connection.readBlocked = false) {q : Query α}
    (hparameters : q.parameters ≤ Refusal.parameterLimit) {a : α}
    (h : q.run s.connection.view = .ok (.ok a)) : (s.ask q).1 = .ok a := by
  rw [ask_of_live (check_of_live hlive)]
  show (s.connection.read q).1.mapError _ = _
  rw [Connection.read_of_free hreadable hfree hparameters h]
  rfl

/-- A question with too many parameters is never answered. -/
theorem ask_of_many {q : Query α} (h : Refusal.parameterLimit < q.parameters) (s : Call) :
    ∃ e, (s.ask q).1 = .error e ∧ (s.signal.Live → e = .refused .tooManyParameters) := by
  rcases s.check_cases with ⟨r, hr, hcheck⟩ | ⟨-, hcheck⟩
  · refine ⟨.abandoned r, by rw [ask_of_abandoned hcheck], fun hlive => ?_⟩
    rw [check_of_live hlive] at hcheck
    cases hcheck
  · refine ⟨.refused .tooManyParameters, ?_, fun _ => rfl⟩
    rw [ask_of_live hcheck, Connection.read, if_pos h]
    rfl

/-- An answer is read off the tables that the connection sees. -/
theorem run_of_ask {q : Query α} {s : Call} {a : α} (h : (s.ask q).1 = .ok a) :
    q.run s.connection.view = .ok (.ok a) := by
  rcases s.check_cases with ⟨r, -, hcheck⟩ | ⟨-, hcheck⟩
  · simp [ask_of_abandoned hcheck] at h
  · rw [ask_of_live hcheck] at h
    refine Connection.run_of_read ?_
    cases hread : (s.connection.read q).1 with
    | error cause => simp [hread, Except.mapError] at h
    | ok b => simpa [hread, Except.mapError] using h

/-- A question outside a transaction leaves the connection as it was. -/
theorem connection_ask {s : Call} (hs : s.connection.transaction = none) (q : Query α) :
    (s.ask q).2.connection = s.connection := by
  rcases s.check_cases with ⟨r, -, hcheck⟩ | ⟨-, hcheck⟩
  · simp [ask_of_abandoned hcheck]
  · rw [ask_of_live hcheck]
    exact Connection.read_alone hs q

/-! ## Writing -/

section Change

variable (p : Prepared) (handsBack : α → Bool) (u : Update α)

theorem change_of_abandoned {s : Call} {e : StoreError} (h : s.check.1 = .error e) :
    s.change p handsBack u = (.error e, s.check.2) :=
  guarded_of_abandoned h _

theorem connection_perform (s : Call) :
    (s.perform handsBack u).2.connection = (s.connection.write handsBack u).connection ∧
      (s.perform handsBack u).1 = (s.connection.write handsBack u).answer.mapError .refused := by
  unfold perform
  simp only
  split
  · rename_i a ha
    exact ⟨rfl, by rw [ha]; rfl⟩
  · rename_i cause hcause
    exact ⟨rfl, by rw [hcause]; rfl⟩

@[simp] theorem taken_perform (s : Call) : (s.perform handsBack u).2.taken = s.taken := by
  unfold perform
  simp only
  split <;> rfl

@[simp] theorem signal_perform (s : Call) :
    (s.perform handsBack u).2.signal =
      s.signal.ticks .write (s.connection.write handsBack u).writes := by
  unfold perform
  simp only
  split <;> rfl

/-- The looks at a statement that writes. -/
def looksAt (s : Call) : List Look :=
  let ran := s.connection.write handsBack u
  ran.work.looks ran.writes (s.taken.ofStatement p)

/-- A guarded write whose first check let it go on: it is given up at a look at which the token has
fired, and is undone unless it is settled by then; or it ends as the write does. -/
theorem change_of_checked {s : Call} (h : s.check.1 = .ok ()) :
    let r := s.change p handsBack u
    let ran := s.connection.write handsBack u
    let checked := s.signal.tick .check
    (∃ l ∈ s.looksAt p handsBack u, ∃ reason, r.1 = .error (.abandoned reason) ∧
        (l.signal checked).reason = some reason ∧ r.2.signal = l.signal checked ∧
        r.2.connection = if l.settled then ran.connection else s.connection.abandon) ∨
      (r.1 = ran.answer.mapError .refused ∧ r.2.connection = ran.connection ∧
        r.2.signal =
          (checked.ticks .look (s.looksAt p handsBack u).length).ticks .write ran.writes ∧
        r.2.taken = s.taken.advance p (ran.work.total ran.writes)) := by
  intro r ran checked
  have hsignal : s.polling.signal = checked := signal_check s
  have hconnection : s.polling.connection = s.connection := connection_polling s
  have hpolled : s.polling.polled = some checked := congrArg some hsignal
  have hr : r = _ := guarded_of_live h _
  simp only [hconnection, hpolled, taken_polling] at hr
  rw [show ran.work.looks ran.writes (s.taken.ofStatement p) = s.looksAt p handsBack u from rfl]
    at hr
  cases hstopped : stoppedAt? (s.looksAt p handsBack u) (some checked) with
  | some l =>
    simp only [hstopped] at hr
    have hfound : (s.looksAt p handsBack u).find? (fun l => (l.signal checked).fired) = some l :=
      hstopped
    have hfired := List.find?_some hfound
    obtain ⟨reason, hreason⟩ := Option.isSome_iff_exists.1 hfired
    have hleft : (giveUp p ran.connection l s.polling : Stored Call α).2.signal =
        l.signal checked := congrArg l.signal hsignal
    refine .inl ⟨l, List.mem_of_find?_eq_some hfound, reason, ?_, hreason, ?_, ?_⟩
    · rw [hr]
      show Except.error (giveUp p ran.connection l s.polling : Stored Call α).2.interruption = _
      rw [interruption, hleft, hreason]
    · rw [hr]
      exact hleft
    · rw [hr, ← congrArg Connection.abandon hconnection]
      rfl
  | none =>
    simp only [hstopped] at hr
    obtain ⟨hran, hanswer⟩ := connection_perform handsBack u
      (s.polling.spend p (ran.work.total ran.writes) (s.looksAt p handsBack u).length)
    have hleft := signal_perform handsBack u
      (s.polling.spend p (ran.work.total ran.writes) (s.looksAt p handsBack u).length)
    have htaken := taken_perform handsBack u
      (s.polling.spend p (ran.work.total ran.writes) (s.looksAt p handsBack u).length)
    simp only [spend, hconnection, hsignal, taken_polling] at hran hanswer hleft htaken hr
    rw [hr]
    exact .inr ⟨hanswer, hran, hleft, htaken⟩

end Change

/-- A guarded write: given up, with nothing of it left and the transaction around it undone at
most, or settled by then; or with the outcome of the write. -/
theorem change_cases (p : Prepared) (handsBack : α → Bool) (u : Update α) (s : Call) :
    let r := s.change p handsBack u
    let ran := s.connection.write handsBack u
    ((r.2.connection = s.connection ∨ r.2.connection = s.connection.abandon ∨
          (∃ l ∈ s.looksAt p handsBack u, l.settled = true) ∧ r.2.connection = ran.connection) ∧
        ∃ e, r.1 = .error e ∧ e.isCancellation = true) ∨
      (r.2.connection = ran.connection ∧ r.1 = ran.answer.mapError .refused) := by
  intro r ran
  rcases s.check_cases with ⟨reason, -, hcheck⟩ | ⟨-, hcheck⟩
  · have hr : r = (.error (.abandoned reason), s.check.2) :=
      change_of_abandoned p handsBack u hcheck
    rw [hr]
    exact .inl ⟨.inl (connection_check s), _, rfl, rfl⟩
  · rcases change_of_checked p handsBack u hcheck with
      ⟨l, hl, reason, hanswer, -, -, hconnection⟩ | ⟨hanswer, hconnection, -⟩
    · refine .inl ⟨.inr ?_, _, hanswer, rfl⟩
      cases hsettled : l.settled with
      | true => exact .inr ⟨⟨l, hl, hsettled⟩, by simpa [hsettled] using hconnection⟩
      | false => exact .inl (by simpa [hsettled] using hconnection)
    · exact .inr ⟨hconnection, hanswer⟩

/-- A call on the small store, with a token that never fires. -/
def sample : Call := { connection := { committed := .sample } }

/-! ## Outside a transaction -/

/-- A guarded write outside a transaction: an error, with the connection as it was; or an answer
that was handed back before the commit was refused; or the new tables published, and with them an
answer, or a cancellation if a look found the statement settled. -/
theorem change_alone_cases {s : Call} (hs : s.connection.transaction = none) (p : Prepared)
    (handsBack : α → Bool) (u : Update α) :
    let r := s.change p handsBack u
    ((∃ e, r.1 = .error e) ∧ r.2.connection = s.connection) ∨
      (s.connection.commitBlocked = true ∧ ∃ a, r.1 = .ok a ∧ handsBack a = true ∧
        r.2.connection = s.connection) ∨
      (s.connection.commitBlocked = false ∧ ∃ e a, u s.connection.committed = .ok e ∧
        e.answer = .ok a ∧ r.2.connection = s.connection.publish e.tables e.touches ∧
        (r.1 = .ok a ∨ (∃ l ∈ e.work.looks e.writes (s.taken.ofStatement p), l.settled = true) ∧
          ∃ cause, r.1 = .error cause ∧ cause.isCancellation = true)) := by
  intro r
  rcases change_cases p handsBack u s with
    ⟨hconnection, cause, hcause, hcancelled⟩ | ⟨hconnection, hanswer⟩
  · rcases hconnection with h | h | ⟨hsettled, h⟩
    · exact .inl ⟨⟨cause, hcause⟩, h⟩
    · exact .inl ⟨⟨cause, hcause⟩, h.trans (Connection.abandon_of_alone hs)⟩
    · rcases Connection.write_alone_cases hs handsBack u with
        ⟨hsame, -⟩ | ⟨-, hsame, -⟩ | ⟨hfree, e, a, he, ha, -, hwrite⟩
      · exact .inl ⟨⟨cause, hcause⟩, h.trans hsame⟩
      · exact .inl ⟨⟨cause, hcause⟩, h.trans hsame⟩
      · rw [looksAt, hwrite] at hsettled
        rw [hwrite] at h
        exact .inr (.inr ⟨hfree, e, a, he, ha, h, .inr ⟨hsettled, cause, hcause, hcancelled⟩⟩)
  · rcases Connection.write_alone_cases hs handsBack u with
      ⟨hsame, cause, hcause, -⟩ | ⟨hblocked, hsame, -, a, -, -, hback, hok⟩ |
        ⟨hfree, e, a, he, ha, -, hwrite⟩
    · refine .inl ⟨⟨.refused cause, ?_⟩, hconnection.trans hsame⟩
      rw [show r.1 = _ from hanswer, hcause]
      rfl
    · refine .inr (.inl ⟨hblocked, a, ?_, hback, hconnection.trans hsame⟩)
      rw [show r.1 = _ from hanswer, hok]
      rfl
    · rw [hwrite] at hconnection hanswer
      exact .inr (.inr ⟨hfree, e, a, he, ha, hconnection, .inl hanswer⟩)

/-- A write that is kept from running leaves the connection as it was. -/
theorem connection_change_of_obstacle {s : Call} (hs : s.connection.transaction = none)
    {cause : Refusal} (h : s.connection.writeObstacle? = some cause) (p : Prepared)
    (handsBack : α → Bool) (u : Update α) :
    (s.change p handsBack u).2.connection = s.connection := by
  have hwrite : (s.connection.write handsBack u).connection = s.connection := by
    rw [Connection.write, h]
    split <;> rfl
  rcases change_cases p handsBack u s with ⟨hleft | hleft | ⟨-, hleft⟩, -⟩ | ⟨hleft, -⟩
  · exact hleft
  · exact hleft.trans (Connection.abandon_of_alone hs)
  · exact hleft.trans hwrite
  · exact hleft.trans hwrite

/-- From one state of a call to a later one: if no transaction was open, none is open then, the
settings are the same, and elementary changes of some areas lead from the old tables to the new. -/
def Leads (areas : List Area) (s s' : Call) : Prop :=
  s.connection.transaction = none →
    s'.connection.transaction = none ∧ s'.connection.settings = s.connection.settings ∧
      Database.Steps s.connection.ignoresRules areas s.connection.committed
        s'.connection.committed

variable {areas : List Area} {s s' s'' : Call}

theorem Leads.of_connection_eq (h : s'.connection = s.connection) : Leads areas s s' := by
  intro hs
  rw [h]
  exact ⟨hs, rfl, .refl⟩

theorem Leads.refl (s : Call) : Leads areas s s := .of_connection_eq rfl

theorem Leads.trans (h : Leads areas s s') (h' : Leads areas s' s'') : Leads areas s s'' := by
  intro hs
  obtain ⟨hs', hsettings, hsteps⟩ := h hs
  obtain ⟨hs'', hsettings', hsteps'⟩ := h' hs'
  rw [Connection.ignoresRules_of_settings hsettings] at hsteps'
  exact ⟨hs'', hsettings'.trans hsettings, hsteps.trans hsteps'⟩

theorem Leads.mono {more : List Area} (hsub : areas ⊆ more) (h : Leads areas s s') :
    Leads more s s' := by
  intro hs
  obtain ⟨hs', hsettings, hsteps⟩ := h hs
  exact ⟨hs', hsettings, hsteps.mono hsub⟩

theorem leads_tell (e : Event) (s : Call) : Leads areas s (s.tell e) :=
  .of_connection_eq (connection_tell e s)

theorem leads_ask (q : Query α) (s : Call) : Leads areas s (s.ask q).2 := by
  intro hs
  exact Leads.of_connection_eq (connection_ask hs q) hs

/-- A guarded write whose effects are elementary changes. -/
theorem leads_change {area : Area} (hmem : area ∈ areas) (p : Prepared) (handsBack : α → Bool)
    (u : Update α) (s : Call)
    (hu : ∀ db e, u db = .ok e →
      e.tables = db ∨ db.Step s.connection.ignoresRules area e.tables) :
    Leads areas s (s.change p handsBack u).2 := by
  intro hs
  rcases change_alone_cases hs p handsBack u with
    ⟨-, hsame⟩ | ⟨-, -, -, -, hsame⟩ | ⟨-, e, a, he, -, hpublished, -⟩
  · exact Leads.of_connection_eq hsame hs
  · exact Leads.of_connection_eq hsame hs
  · rw [hpublished]
    refine ⟨hs, rfl, ?_⟩
    rcases hu _ e he with hsame | hstep
    · rw [show (s.connection.publish e.tables e.touches).committed = e.tables from rfl, hsame]
      exact .refl
    · exact .single hmem hstep

/-! ## Answers to the caller -/

theorem state_during {σ : Type} (a : Activity) (r : Stored σ α) : (during a r).2 = r.2 := by
  rcases r with ⟨_ | x, s⟩ <;> rfl

theorem during_eq_ok_iff {σ : Type} (a : Activity) (r : Stored σ α) (x : α) :
    (during a r).1 = .ok x ↔ r.1 = .ok x := by
  rcases r with ⟨_ | x, s⟩ <;> simp [during]

theorem during_of_error {σ : Type} (a : Activity) {r : Stored σ α} {e : StoreError}
    (h : r.1 = .error e) : (during a r).1 = .error (.internal a.text (some e)) := by
  rcases r with ⟨_ | x, s⟩
  · obtain rfl := Except.error.inj h
    rfl
  · exact nomatch h

@[simp] theorem answer_observed (op : Operation) (run : Call → Answered Call α) (s : Call) :
    (observed tell op run s).1 = (run (s.tell (.called op))).1 := by
  unfold observed
  rcases run (s.tell (.called op)) with ⟨_ | a, s'⟩ <;> rfl

@[simp] theorem connection_observed (op : Operation) (run : Call → Answered Call α) (s : Call) :
    (observed tell op run s).2.connection = (run (s.tell (.called op))).2.connection := by
  unfold observed
  rcases run (s.tell (.called op)) with ⟨_ | a, s'⟩
  · exact connection_tell _ s'
  · rfl

theorem leads_observed {op : Operation} {run : Call → Answered Call α}
    (hrun : ∀ s, Leads areas s (run s).2) (s : Call) :
    Leads areas s (observed tell op run s).2 :=
  ((leads_tell (.called op) s).trans (hrun _)).trans
    (.of_connection_eq (connection_observed op run s))

end Call

end JobBoard
