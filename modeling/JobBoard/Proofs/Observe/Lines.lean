import JobBoard.Logging.File
import JobBoard.Proofs.Text.OneLine

/-!
# Lines of events

An event becomes one line of the log. Its error is put on one line first, and its other fields are
words of the program, except for the request id, which is written as it was handed over. So the line
breaks of the line are those of the request id (`breaks_line`).
-/

set_option autoImplicit false

namespace JobBoard.Observe

open Text

theorem breaks_operation (op : Operation) : breaks op.text = [] := by
  cases op <;> rfl

theorem breaks_dictionary (d : Dictionary) : breaks d.text = [] := by
  cases d <;> rfl

theorem breaks_errorKind (k : ErrorKind) : breaks k.text = [] := by
  cases k <;> rfl

theorem breaks_label (l : Level) : breaks l.label = [] := by
  cases l <;> rfl

/-- One case for each event: every field but the request id is free of line breaks. -/
theorem breaks_line (requestId : String) (e : Event) :
    breaks (e.line requestId).text = breaks requestId := by
  cases e with
  | called op =>
    simp only [Event.line, breaks_append, breaks_operation]
    simp [breaks, isBreak]
  | retried d =>
    simp only [Event.line, breaks_append, breaks_dictionary]
    simp [breaks, isBreak]
  | failed op e =>
    simp only [Event.line, breaks_append, breaks_operation, breaks_errorKind, breaks_oneLine]
    simp [breaks, isBreak]
  | rollbackFailed op e =>
    simp only [Event.line, breaks_append, breaks_operation, breaks_oneLine]
    simp [breaks, isBreak]

theorem breaks_fileLine (l : Line) : breaks (Logging.fileLine l) = breaks l.text ++ ['\n'] := by
  rw [Logging.fileLine]
  simp only [breaks_append, breaks_label]
  simp [breaks, isBreak]

theorem lines_map_event (requestId : String) (events : List Event) :
    lines true requestId (events.map .event) = events.map (Event.line requestId) := by
  rw [lines, List.filterMap_map, ← List.filterMap_eq_map]
  rfl

/-- Events are one entry each, and each of them ends its line. -/
theorem breaks_file (requestId : String) (events : List Event) :
    breaks (String.join ((lines true requestId (events.map .event)).map Logging.fileLine)) =
      events.flatMap fun _ => breaks requestId ++ ['\n'] := by
  induction events with
  | nil => rfl
  | cons e events ih =>
    rw [lines_map_event] at ih ⊢
    rw [List.map_cons, List.map_cons, String.join_cons, breaks_append, ih, breaks_fileLine,
      breaks_line, List.flatMap_cons]

/-- Whatever the operation, the kind and the error are, the text of the line of an event has the
line breaks of the request id and no others. So in the file the events of a call are one line each,
ended by a line feed, exactly if the request id is free of line breaks. -/
theorem event_breaks_of_requestId (requestId : String) :
    (∀ e : Event, breaks (e.line requestId).text = breaks requestId ∧
      ('\n' ∉ (e.line requestId).text.toList ∧ '\r' ∉ (e.line requestId).text.toList ↔
        '\n' ∉ requestId.toList ∧ '\r' ∉ requestId.toList)) ∧
    ∀ events : List Event,
      lines true requestId (events.map .event) = events.map (Event.line requestId) ∧
      breaks (String.join ((lines true requestId (events.map .event)).map Logging.fileLine)) =
        events.flatMap fun _ => breaks requestId ++ ['\n'] := by
  refine ⟨fun e => ⟨breaks_line requestId e, ?_⟩, fun events => ?_⟩
  · rw [← breaks_eq_nil_iff, breaks_line, breaks_eq_nil_iff]
  · exact ⟨lines_map_event requestId events, breaks_file requestId events⟩

/-- A request id of two lines makes two lines of one event. -/
theorem not_event_always_one_line :
    ¬∀ (requestId : String) (e : Event),
      '\n' ∉ (e.line requestId).text.toList ∧ '\r' ∉ (e.line requestId).text.toList := by
  intro h
  have hbreak : '\n' ∈ (Event.line "a\nevent=forged" (.called .resolve)).text.toList := by decide
  exact (h "a\nevent=forged" (.called .resolve)).1 hbreak

end JobBoard.Observe
