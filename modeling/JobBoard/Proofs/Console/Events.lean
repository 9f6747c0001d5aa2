import JobBoard.Proofs.Call.Telling
import JobBoard.Proofs.Console.Cancellation

/-!
# Events and outcomes

Whoever observes a call can tell from the events what it was and how it ended. An operation that has
something to do is announced, and its error, if it ends in one, is reported once and last. A call
made of several operations tells what they tell, one after the other, and reports nothing twice. The
main theorem is `events_mirror_outcomes`.
-/

set_option autoImplicit false

namespace JobBoard.Console

open Call Observe

/-- The error of the board that a reply tells of. -/
def Reply.failure? : Reply → Option BoardError
  | .boardFailed e => some e
  | _ => none

/-- The operation that a call is; none if it is made of several, or is no operation. -/
def BoardCall.operation? : BoardCall → Option Operation
  | .resolve .. => some .resolve
  | .getById .. | .getByIds .. | .listAll _ | .findIdsByNames .. => some .lookupRead
  | .associate .. => some .associate
  | .listForOwner .. | .attached .. => some .listAssociations
  | .clearOwner .. => some .clearAssociations
  | .search .. => some .search
  | _ => none

/-- What an operation may tell between its announcement and its report, of which the error is given:
nothing; when it resolves a name, that it looks it up again; when it fails to attach edges, that it
could not undo its transaction. -/
inductive Interlude : BoardCall → Option BoardError → List Event → Prop where
  | quiet {b : BoardCall} {e : Option BoardError} : Interlude b e []
  | retried {d : Dictionary} {name : String} {e : Option BoardError} :
      Interlude (.resolve d name) e [.retried d]
  | undoing {k : EdgeKind} {owner : Int} {ids : List Int} {e : BoardError} {cause : StoreError} :
      Interlude (.associate k owner ids) (some e) [.rollbackFailed .associate cause]

theorem Interlude.unreported {b : BoardCall} {e : Option BoardError} {between : List Event}
    (h : Interlude b e between) : between.filterMap Event.failure? = [] := by
  cases h <;> rfl

/-! ## Single operations -/

/-- A call tells its announcement, an interlude and its report. -/
def Mirrored (op : Operation) (b : BoardCall) (s : Call) (r : Reply × Call) : Prop :=
  s.notes <+: r.2.notes ∧ ∃ between, Interlude b r.1.failure? between ∧
    emitted s r.2 = .called op :: (between ++ report op r.1.failure?)

theorem failure?_answered {α : Type} {f : α → Reply} (hf : ∀ a, (f a).failure? = none)
    (r : Answered Call α) : (answered f r).1.failure? = raised? r.1 := by
  rcases r with ⟨e | a, s⟩
  · rfl
  · exact hf a

theorem mirrored_answered {α : Type} {f : α → Reply} (hf : ∀ a, (f a).failure? = none)
    {op : Operation} {b : BoardCall} {between : List Event} {s : Call} {r : Answered Call α}
    (h : Mirrors op between s r) (hbetween : Interlude b (raised? r.1) between) :
    Mirrored op b s (answered f r) := by
  refine ⟨Tells.keeps h, between, ?_, ?_⟩
  · rw [failure?_answered hf]
    exact hbetween
  · rw [failure?_answered hf]
    exact Tells.emitted_eq h

theorem mirrored_run {b : BoardCall} {op : Operation} (hop : b.operation? = some op)
    (hspared : b.spared? = none) (s : Call) : Mirrored op b s (b.run s) := by
  cases b with
  | resolve d name =>
    obtain rfl := Option.some.inj hop
    rcases mirrors_resolve d name s with h | h
    · exact mirrored_answered (fun _ => rfl) h .quiet
    · exact mirrored_answered (fun _ => rfl) h .retried
  | getById d id =>
    obtain rfl := Option.some.inj hop
    exact mirrored_answered (fun _ => rfl) (mirrors_getById d id s) .quiet
  | getByIds d ids =>
    obtain rfl := Option.some.inj hop
    have hids : ids ≠ [] := by rintro rfl; simp [BoardCall.spared?] at hspared
    exact mirrored_answered (fun _ => rfl) (mirrors_getByIds d hids s) .quiet
  | listAll d =>
    obtain rfl := Option.some.inj hop
    exact mirrored_answered (fun _ => rfl) (mirrors_during_ask _ _ _ s) .quiet
  | findIdsByNames d names =>
    obtain rfl := Option.some.inj hop
    have hnames : names ≠ [] := by rintro rfl; simp [BoardCall.spared?] at hspared
    exact mirrored_answered (fun _ => rfl) (mirrors_findIdsByNames d hnames s) .quiet
  | associate k owner ids =>
    obtain rfl := Option.some.inj hop
    have hids : ids ≠ [] := by rintro rfl; simp [BoardCall.spared?] at hspared
    obtain ⟨between, hundoing, h⟩ := mirrors_associate k owner hids s
    refine mirrored_answered (fun _ => rfl) h ?_
    generalize raised? (s.associate k owner ids).1 = e at hundoing ⊢
    cases hundoing with
    | quiet => exact .quiet
    | failed => exact .undoing
  | listForOwner k owner =>
    obtain rfl := Option.some.inj hop
    exact mirrored_answered (fun _ => rfl) (mirrors_during_ask _ _ _ s) .quiet
  | attached k owner =>
    obtain rfl := Option.some.inj hop
    exact mirrored_answered (fun _ => rfl) (mirrors_during_ask _ _ _ s) .quiet
  | clearOwner k owner =>
    obtain rfl := Option.some.inj hop
    exact mirrored_answered (fun _ => rfl) (mirrors_clearOwner k owner s) .quiet
  | search limits criteria =>
    obtain rfl := Option.some.inj hop
    exact mirrored_answered (fun _ => rfl) (mirrors_search limits criteria s) .quiet
  | _ => cases hop

/-! ## All operations -/

/-- A search by a request reports once, unless the request is bad. -/
theorem reports_searchFor (limits : SearchLimits) {r : SearchRequest}
    {lists : List Employment × List Experience} (hvalid : r.validate = .ok lists) (s : Call) :
    Reports s (s.searchFor limits r) := by
  by_cases hnames : normalizeNames r.specializations = []
  · rw [searchFor_of_unnamed hvalid hnames]
    exact (mirrors_search limits _ s).reports rfl
  · have hlooked := (mirrors_findIdsByNames .specialization hnames s).reports rfl
    have hcases := searchFor_named_cases limits hvalid hnames s
    generalize s.findIdsByNames .specialization (normalizeNames r.specializations) = looked
      at hlooked hcases
    rcases looked with ⟨outcome, s'⟩
    rcases hcases with ⟨e, he, heq⟩ | ⟨hempty, heq⟩ | ⟨ids, -, hids, heq⟩ <;> rw [heq]
    · obtain rfl : outcome = .error e := he
      exact hlooked
    · obtain rfl : outcome = .ok [] := hempty
      exact hlooked
    · obtain rfl : outcome = .ok ids := hids
      exact ((mirrors_search limits _ s').reports rfl).after hlooked

/-- The notes of a call stay, and its error is reported once and last. -/
def Reported (s : Call) (r : Reply × Call) : Prop :=
  s.notes <+: r.2.notes ∧ ReportedOnce r.1.failure? (emitted s r.2)

theorem reported_answered {α : Type} {f : α → Reply} (hf : ∀ a, (f a).failure? = none) {s : Call}
    {r : Answered Call α} (h : Reports s r) : Reported s (answered f r) := by
  obtain ⟨es, htells, honce⟩ := h
  refine ⟨htells.keeps, ?_⟩
  rw [failure?_answered hf]
  exact htells.emitted_eq.symm ▸ honce

theorem Mirrored.reported {op : Operation} {b : BoardCall} {s : Call} {r : Reply × Call}
    (h : Mirrored op b s r) : Reported s r := by
  obtain ⟨hkeeps, between, hbetween, hemitted⟩ := h
  have hcalled : ReportedOnce none (.called op :: between) := ⟨hbetween.unreported, nofun⟩
  refine ⟨hkeeps, ?_⟩
  rw [hemitted]
  exact (reportedOnce_report op _).append hcalled

theorem reported_run {b : BoardCall} (hb : b.isOperation = true) (hspared : b.spared? = none)
    (s : Call) : Reported s (b.run s) := by
  cases hop : b.operation? with
  | some op => exact (mirrored_run hop hspared s).reported
  | none =>
    cases b with
    | findIdByName d name => cases hb
    | insertName d name => cases hb
    | resolveAgainst id move d name => cases hb
    | resolveAll d names => exact reported_answered (fun _ => rfl) (reports_resolveAll d names s)
    | attachNames k owner names =>
      exact reported_answered (fun _ => rfl) (tells_attachNames k owner names s).2
    | replaceNames k owner names =>
      exact reported_answered (fun _ => rfl) (tells_replaceNames k owner names s).2
    | searchFor limits request =>
      cases hvalid : request.validate with
      | error e => simp [BoardCall.spared?, hvalid] at hspared
      | ok lists => exact reported_answered (fun _ => rfl) (reports_searchFor limits hvalid s)
    | _ => cases hop

/-- The events of a call mirror its outcome, whatever its token does. A call with nothing to do
tells nothing. An operation tells first that it was called and last its error, if it fails; in
between there is at most the retry of a name that is resolved, or the failed undoing of a failed
attachment. Resolving a list tells that, and then what its names tell up to the first that fails;
attaching names tells what resolving them tells and then, if that went well, what attaching the ids
tells; replacing names tells what the clearing tells, and then, if that went well, what attaching
them tells. So every failure is reported exactly once, by the last event, and nothing but a
failure. -/
theorem events_mirror_outcomes (s : Call) :
    (∀ (b : BoardCall) reply, b.spared? = some reply → emitted s (b.run s).2 = []) ∧
      (∀ (b : BoardCall) op, b.operation? = some op → b.spared? = none →
        ∃ between, Interlude b (b.run s).1.failure? between ∧
          emitted s (b.run s).2 =
            .called op :: (between ++ report op (b.run s).1.failure?)) ∧
      (∀ d names, names ≠ [] → emitted s (s.resolveAll d names).2 =
        .called .resolveAll :: (Call.names.runs d names (s.tell (.called .resolveAll))).flatMap
          fun r => emitted r.start (r.start.resolve d r.name).2) ∧
      (∀ k owner names, emitted s (s.attachNames k owner names).2 =
        emitted s (s.resolveAll k.dictionary (normalizeNames names)).2 ++
          match s.resolveAll k.dictionary (normalizeNames names) with
          | (.ok ids, s') => emitted s' (s'.associate k owner ids).2
          | (.error _, _) => []) ∧
      (∀ k owner names, emitted s (s.replaceNames k owner names).2 =
        emitted s (s.clearOwner k owner).2 ++
          match s.clearOwner k owner with
          | (.ok _, s') => emitted s' (s'.attachNames k owner names).2
          | (.error _, _) => []) ∧
      ∀ b : BoardCall, b.isOperation = true → b.spared? = none → s.notes <+: (b.run s).2.notes ∧
        ReportedOnce (b.run s).1.failure? (emitted s (b.run s).2) := by
  refine ⟨fun b reply hspared => ?_, fun b op hop hspared => (mirrored_run hop hspared s).2,
    fun d names hnames => (tells_resolveAll d hnames s).emitted_eq,
    fun k owner names => (tells_attachNames k owner names s).1,
    fun k owner names => (tells_replaceNames k owner names s).1,
    fun b hb hspared => reported_run hb hspared s⟩
  rw [(run_of_spared hspared s).1]
  exact (Tells.refl s).emitted_eq

/-- On the small store the names are resolved up to the one before which the token fires, and that
is reported once. Edges are not announced if there are none. -/
theorem events_mirror_outcomes_sample :
    let s : Call := { Call.sample with signal := { alarms := [⟨.check, 3, .cancelled⟩] } }
    let b : BoardCall := .attachNames .vacancySkill 1 ["go", "sql", "c"]
    (∃ e, (b.run s).1.failure? = some e ∧ ReportedOnce (some e) (emitted s (b.run s).2)) ∧
      emitted s (s.resolveAll .skill ["go", "sql", "c"]).2 = .called .resolveAll ::
        (Call.names.runs .skill ["go", "sql", "c"] (s.tell (.called .resolveAll))).flatMap
          (fun r => emitted r.start (r.start.resolve .skill r.name).2) ∧
      ((Call.names.runs .skill ["go", "sql", "c"] (s.tell (.called .resolveAll))).map
        NameStore.Run.name = ["go", "sql"]) ∧
      emitted s ((BoardCall.associate .vacancySkill 1 []).run s).2 = [] := by
  intro s b
  obtain ⟨hspared, -, hlist, -, -, hreported⟩ := events_mirror_outcomes s
  have hfailed : (b.run s).1.failure? = some
      (.internal "failed to look up skill by name" (some (.abandoned .cancelled))) := by decide
  refine ⟨⟨_, hfailed, ?_⟩, hlist .skill ["go", "sql", "c"] (by decide), by decide,
    hspared (.associate .vacancySkill 1 []) .done rfl⟩
  rw [← hfailed]
  exact (hreported b rfl (by decide)).2

end JobBoard.Console
