import JobBoard.Proofs.Call.Cancellation
import JobBoard.Proofs.Console.Turns

/-!
# Cancelled operations on one connection

An operation whose token has fired is turned away before it does anything, unless there is nothing
to do or its input is bad. Operations run one after the other on a connection, each with a token of
its own. None leaves its token behind with the connection, so the tokens of earlier operations have
no say in a later one: it ends in a cancellation only if its own token has fired. The main theorem
is `cancellation_honoured`.
-/

set_option autoImplicit false

namespace JobBoard.Console

open Cancel Store

/-- The operations of the board: calls other than the two single statements of the store, and
without a rival. -/
def BoardCall.isOperation : BoardCall → Bool
  | .findIdByName .. | .insertName .. | .resolveAgainst .. => false
  | _ => true

/-- The reply to an operation that asks nothing of the store, because its input is empty or bad. -/
def BoardCall.spared? : BoardCall → Option Reply
  | .resolveAll _ [] | .findIdsByNames _ [] => some (.numbers [])
  | .getByIds _ [] => some (.entries [])
  | .associate _ _ [] => some .done
  | .attachNames _ _ names => if normalizeNames names = [] then some (.numbers []) else none
  | .searchFor _ request =>
    match request.validate with
    | .error e => some (.boardFailed e)
    | .ok _ => none
  | _ => none

/-! ## One operation -/

/-- A call that is turned away: it fails with an internal error that carries the reason for which
the token has fired by then, and the connection is as it was. -/
def TurnedAway (s : Call) (r : Reply × Call) : Prop :=
  ∃ context reason, r.1 = .boardFailed (.internal context (some (.abandoned reason))) ∧
    r.2.connection = s.connection ∧ r.2.signal.reason = some reason ∧
    ∀ reason', s.signal.reason = some reason' → reason = reason' ∨ reason = .cancelled

theorem turnedAway_answered {α : Type} {f : α → Reply} {s : Call} {r : Answered Call α}
    (h : s.TurnedAway r) : TurnedAway s (answered f r) := by
  cases h with
  | intro connection later reason =>
    refine ⟨_, _, rfl, connection, reason, fun reason' h => ?_⟩
    simpa [reason] using later reason' h

/-- An operation that is not spared is turned away if its token has fired. -/
theorem turnedAway_run {b : BoardCall} (hb : b.isOperation = true) (hspared : b.spared? = none)
    {s : Call} (h : s.signal.fired = true) : TurnedAway s (b.run s) := by
  cases b with
  | findIdByName d name => simp [BoardCall.isOperation] at hb
  | insertName d name => simp [BoardCall.isOperation] at hb
  | resolveAgainst id move d name => simp [BoardCall.isOperation] at hb
  | resolve d name => exact turnedAway_answered (Call.turnedAway_resolve h d name)
  | resolveAll d names =>
    have hnames : names ≠ [] := by rintro rfl; simp [BoardCall.spared?] at hspared
    exact turnedAway_answered (Call.turnedAway_resolveAll h d hnames)
  | getById d id => exact turnedAway_answered (Call.turnedAway_getById h d id)
  | getByIds d ids =>
    have hids : ids ≠ [] := by rintro rfl; simp [BoardCall.spared?] at hspared
    exact turnedAway_answered (Call.turnedAway_getByIds h d hids)
  | listAll d => exact turnedAway_answered (Call.turnedAway_listAll h d)
  | findIdsByNames d names =>
    have hnames : names ≠ [] := by rintro rfl; simp [BoardCall.spared?] at hspared
    exact turnedAway_answered (Call.turnedAway_findIdsByNames h d hnames)
  | associate k owner ids =>
    have hids : ids ≠ [] := by rintro rfl; simp [BoardCall.spared?] at hspared
    exact turnedAway_answered (Call.turnedAway_associate h k owner hids)
  | listForOwner k owner => exact turnedAway_answered (Call.turnedAway_listForOwner h k owner)
  | clearOwner k owner => exact turnedAway_answered (Call.turnedAway_clearOwner h k owner)
  | attachNames k owner names =>
    have hnames : normalizeNames names ≠ [] := by
      intro hnil
      simp [BoardCall.spared?, hnil] at hspared
    exact turnedAway_answered (Call.turnedAway_attachNames h k owner hnames)
  | replaceNames k owner names =>
    exact turnedAway_answered (Call.turnedAway_replaceNames h k owner names)
  | attached k owner => exact turnedAway_answered (Call.turnedAway_listForOwner h k owner)
  | search limits criteria => exact turnedAway_answered (Call.turnedAway_search h limits criteria)
  | searchFor limits request =>
    cases hvalid : request.validate with
    | error e => simp [BoardCall.spared?, hvalid] at hspared
    | ok lists => exact turnedAway_answered (Call.turnedAway_searchFor h limits hvalid)

/-- An operation that is spared replies without a look at its token, and a failure is the caller's
own. -/
theorem run_of_spared {b : BoardCall} {reply : Reply} (h : b.spared? = some reply) (s : Call) :
    b.run s = (reply, s) ∧ ∀ e, reply = .boardFailed e → e.kind = .badRequest := by
  cases b with
  | resolveAll d names =>
    cases names with
    | nil =>
      obtain rfl := Option.some.inj h
      exact ⟨rfl, by simp⟩
    | cons name rest => cases h
  | findIdsByNames d names =>
    cases names with
    | nil =>
      obtain rfl := Option.some.inj h
      exact ⟨rfl, by simp⟩
    | cons name rest => cases h
  | getByIds d ids =>
    cases ids with
    | nil =>
      obtain rfl := Option.some.inj h
      exact ⟨rfl, by simp⟩
    | cons id rest => cases h
  | associate k owner ids =>
    cases ids with
    | nil =>
      obtain rfl := Option.some.inj h
      exact ⟨rfl, by simp⟩
    | cons id rest => cases h
  | attachNames k owner names =>
    by_cases hnames : normalizeNames names = []
    · obtain rfl : Reply.numbers [] = reply := by simpa [BoardCall.spared?, hnames] using h
      refine ⟨?_, by simp⟩
      simp only [BoardCall.run, Call.attachNames, hnames]
      rfl
    · simp [BoardCall.spared?, hnames] at h
  | searchFor limits request =>
    rcases request.validate_cases with ⟨-, message, hfaulty⟩ | ⟨-, employment, experience, hok, -⟩
    · obtain rfl : Reply.boardFailed (.badRequest message) = reply := by
        simpa [BoardCall.spared?, hfaulty] using h
      refine ⟨?_, fun e he => by rw [← Reply.boardFailed.inj he]; rfl⟩
      simp only [BoardCall.run, Call.searchFor_of_error hfaulty]
      rfl
    · simp [BoardCall.spared?, hok] at h
  | _ => cases h

/-! ## Ends of a call -/

/-- Whether a reply tells of a cancellation. -/
def Reply.isCancelled : Reply → Bool
  | .boardFailed (.internal _ (some e)) | .storeFailed e => e.isCancellation
  | _ => false

/-- A call ends in a cancellation only if its token has fired by then, and it leaves no token behind
with the connection. -/
def Honest (s : Call) (r : Reply × Call) : Prop :=
  s.Follows r.2 ∧ (r.1.isCancelled = true → r.2.signal.fired = true)

theorem honest_answered {α : Type} {f : α → Reply} {s : Call} {r : Answered Call α}
    (hf : ∀ a, (f a).isCancelled = false) (h : Call.Honest s r) : Honest s (answered f r) := by
  rcases r with ⟨e | a, s'⟩
  · refine ⟨h.1, fun hcancelled => ?_⟩
    match e, hcancelled with
    | .internal context (some source), hcancelled => exact h.2 context source rfl hcancelled
  · exact ⟨h.1, fun hcancelled => nomatch (hf a).symm.trans hcancelled⟩

theorem honest_stored {α : Type} {f : α → Reply} {s : Call} {r : Stored Call α}
    (hf : ∀ a, (f a).isCancelled = false) (h : Call.HonestlyStored s r) :
    Honest s (stored f r) := by
  rcases r with ⟨e | a, s'⟩
  · exact ⟨h.1, fun hcancelled => h.2 e rfl hcancelled⟩
  · exact ⟨h.1, fun hcancelled => nomatch (hf a).symm.trans hcancelled⟩

/-- Every call without a rival ends honestly. -/
theorem honest_run {b : BoardCall} (hb : b.hasRival = false) (s : Call) : Honest s (b.run s) := by
  cases b with
  | findIdByName d name => exact honest_stored (fun _ => rfl) (Call.honest_findId d name s)
  | insertName d name => exact honest_stored (fun _ => rfl) (Call.honest_insertName d name s)
  | resolve d name => exact honest_answered (fun _ => rfl) (Call.honest_resolve d name s)
  | resolveAll d names => exact honest_answered (fun _ => rfl) (Call.honest_resolveAll d names s)
  | resolveAgainst id move d name => simp [BoardCall.hasRival] at hb
  | getById d id => exact honest_answered (fun _ => rfl) (Call.honest_getById d id s)
  | getByIds d ids => exact honest_answered (fun _ => rfl) (Call.honest_getByIds d ids s)
  | listAll d => exact honest_answered (fun _ => rfl) (Call.honest_listAll d s)
  | findIdsByNames d names =>
    exact honest_answered (fun _ => rfl) (Call.honest_findIdsByNames d names s)
  | associate k owner ids =>
    exact honest_answered (fun _ => rfl) (Call.honest_associate k owner ids s)
  | listForOwner k owner =>
    exact honest_answered (fun _ => rfl) (Call.honest_listForOwner k owner s)
  | clearOwner k owner => exact honest_answered (fun _ => rfl) (Call.honest_clearOwner k owner s)
  | attachNames k owner names =>
    exact honest_answered (fun _ => rfl) (Call.honest_attachNames k owner names s)
  | replaceNames k owner names =>
    exact honest_answered (fun _ => rfl) (Call.honest_replaceNames k owner names s)
  | attached k owner => exact honest_answered (fun _ => rfl) (Call.honest_listForOwner k owner s)
  | search limits criteria =>
    exact honest_answered (fun _ => rfl) (Call.honest_search limits criteria s)
  | searchFor limits request =>
    exact honest_answered (fun _ => rfl) (Call.honest_searchFor limits request s)

/-! ## Calls one after the other -/

/-- A turn, and what becomes of a token before it that the connection were still to look at: by the
time of the turn it may have fired. -/
structure Shift extends Turn where
  meanwhile : Signal → Signal := id

/-- A connection between two calls, with the token that it looks at. -/
structure Post where
  connection : Connection
  polled : Option Signal := none

namespace Shift

/-- The call before it runs. -/
def start (t : Shift) (p : Post) : Call :=
  { t.toTurn.start p.connection with polled := p.polled.map t.meanwhile }

/-- The reply to the call, and the state it ends in. -/
def ran (t : Shift) (p : Post) : Reply × Call := t.call.run (t.start p)

/-- The connection after the call. -/
def after (t : Shift) (p : Post) : Post := ⟨(t.ran p).2.connection, (t.ran p).2.polled⟩

/-- A turn leaves no token behind if it was left none. -/
theorem polled_after (t : Shift) {p : Post} (hp : p.polled = none) : (t.after p).polled = none :=
  (honest_run t.alone (t.start p)).1.polled (by rw [start, hp]; rfl)

end Shift

/-- The connection after some turns. -/
def work : Post → List Shift → Post := List.foldl fun p t => t.after p

/-- No turn leaves a token behind, whatever the tokens do and however the calls end. -/
theorem polled_work (ts : List Shift) {p : Post} (hp : p.polled = none) :
    (work p ts).polled = none := by
  induction ts generalizing p with
  | nil => exact hp
  | cons t rest ih => exact ih (t.polled_after hp)

/-- An operation whose token has fired when it starts is turned away, with nothing done and the
reason of the token in its error. Spared are those with nothing to do, which reply at once, and the
search for a bad request, which names the fault. After any number of calls on a connection, however
they ended and whatever becomes of their tokens, the connection looks at no token, and a call whose
own token has not fired by its end does not end in a cancellation. -/
theorem cancellation_honoured :
    (∀ b : BoardCall, b.isOperation = true → ∀ s : Call, s.signal.fired = true →
      match b.spared? with
      | some reply => b.run s = (reply, s) ∧ ∀ e, reply = .boardFailed e → e.kind = .badRequest
      | none => TurnedAway s (b.run s)) ∧
      ∀ (c : Connection) (earlier : List Shift) (t : Shift),
        let p := work { connection := c } earlier
        p.polled = none ∧
          ((t.ran p).2.signal.fired = false → (t.ran p).1.isCancelled = false) := by
  refine ⟨fun b hb s hfired => ?_, fun c earlier t => ?_⟩
  · cases hspared : b.spared? with
    | some reply => exact run_of_spared hspared s
    | none => exact turnedAway_run hb hspared hfired
  · intro p
    refine ⟨polled_work earlier rfl, fun hquiet => ?_⟩
    -- a cancellation would mean that the token of the call has fired after all
    have hhonest : (t.ran p).1.isCancelled = true → (t.ran p).2.signal.fired = true :=
      (honest_run t.alone (t.start p)).2
    exact Bool.eq_false_iff.2 fun hcancelled => Bool.eq_false_iff.1 hquiet (hhonest hcancelled)

/-- On the small store edges are not written for a token that was cancelled beforehand, but no edges
are written for any token. A listing whose token fires when it is looked at does not keep the next
one from its answer. -/
theorem cancellation_honoured_sample :
    let s : Call := { Call.sample with signal := { cancelled := true } }
    let alarmed : Shift := {
      call := .listAll .skill
      signal := { alarms := [⟨.check, 1, .deadlineExceeded⟩] }
      alone := rfl }
    let quiet : Shift := { call := .listAll .skill, alone := rfl }
    let p := work { connection := s.connection } [alarmed]
    TurnedAway s ((BoardCall.associate .vacancySkill 1 [2]).run s) ∧
      (BoardCall.associate .vacancySkill 1 []).run s = (.done, s) ∧
      (alarmed.ran { connection := s.connection }).1.isCancelled = true ∧
      (quiet.ran p).1.isCancelled = false := by
  intro s alarmed quiet p
  obtain ⟨hturned, hturns⟩ := cancellation_honoured
  refine ⟨hturned (.associate .vacancySkill 1 [2]) rfl s rfl,
    (hturned (.associate .vacancySkill 1 []) rfl s rfl).1, by decide, ?_⟩
  exact (hturns s.connection [alarmed] quiet).2 (by decide)

end JobBoard.Console
