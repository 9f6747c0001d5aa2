import JobBoard.Logging
import JobBoard.Observe.Event
import JobBoard.Proofs.Text.OneLine

/-!
# Quotations

Texts that the program did not write itself reach the log in two places: the message of an error, in
the line of an event, and the payload of a crash. Each stands at the end of its line
(`line_of_error?`, `text_crashLine`), on one line and cut at a limit of its own. So a quotation is
flat and short whatever it quotes, and quoting it once more changes nothing
(`quotations_flat_and_short`).
-/

set_option autoImplicit false

namespace JobBoard

open Text

/-- The message of the error that an event tells of. -/
def Observe.Event.error? : Observe.Event → Option String
  | .called _ => none
  | .retried _ => none
  | .failed _ e => some e.message
  | .rollbackFailed _ e => some e.message

/-- What a payload says, at full length. -/
def Logging.Payload.message : Logging.Payload → String
  | .text s => s
  | .other => "non-string panic payload"

theorem Observe.line_of_error? (requestId : String) {e : Observe.Event} {message : String}
    (h : e.error? = some message) :
    ∃ fields, (e.line requestId).text =
      fields ++ " error=" ++ oneLine Observe.quotedErrorLimit message := by
  cases e with
  | called op => cases h
  | retried d => cases h
  | failed op e =>
    cases h
    exact ⟨"event=" ++ op.text ++ " module=repo status=error error_kind=" ++ e.kind.text ++
      " request_id=" ++ requestId, rfl⟩
  | rollbackFailed op e =>
    cases h
    exact ⟨"event=" ++ op.text ++ " module=repo status=rollback_failed request_id=" ++ requestId,
      rfl⟩

theorem Logging.text_crashLine (place : String) (p : Logging.Payload) :
    (Logging.crashLine place p).text =
      "event=panic_captured module=core status=error location=" ++ place ++ " payload=" ++
        oneLine Logging.payloadLimit p.message := by
  cases p <;> rfl

/-- A text on one line has no line break and at most three characters more than the limit. If it is
within the limit, it is the text itself, flattened; else it is the first characters of the text, as
many as the limit allows, flattened, with three dots behind them. Doing it again changes nothing. So
the error at the end of the line of an event has at most 243 characters, and the payload at the end
of the line of a crash at most 163. -/
theorem quotations_flat_and_short :
    (∀ (limit : Nat) (s : String),
      ('\n' ∉ (oneLine limit s).toList ∧ '\r' ∉ (oneLine limit s).toList) ∧
      (oneLine limit s).length ≤ limit + 3 ∧
      (s.length ≤ limit → Flattened s.toList (oneLine limit s).toList ∧
        (oneLine limit s).length = s.length) ∧
      (limit < s.length → ∃ kept : String, Flattened (s.toList.take limit) kept.toList ∧
        oneLine limit s = kept ++ "...") ∧
      oneLine limit (oneLine limit s) = oneLine limit s) ∧
    (∀ (requestId : String) (e : Observe.Event) (message : String), e.error? = some message →
      ∃ fields quoted, (e.line requestId).text = fields ++ " error=" ++ quoted ∧
        quoted = oneLine 240 message ∧ quoted.length ≤ 243) ∧
    ∀ (place : String) (p : Logging.Payload),
      ∃ quoted, (Logging.crashLine place p).text =
          "event=panic_captured module=core status=error location=" ++ place ++ " payload=" ++
            quoted ∧
        quoted = oneLine 160 p.message ∧ quoted.length ≤ 163 := by
  refine ⟨fun limit s => ⟨?_, length_oneLine_le limit s, ?_, ?_, oneLine_oneLine limit s⟩,
    fun requestId e message h => ?_, fun place p => ?_⟩
  · exact breaks_eq_nil_iff.mp (breaks_oneLine limit s)
  · intro h
    have hflat : Flattened s.toList (oneLine limit s).toList := oneLine_of_length_le h
    refine ⟨hflat, ?_⟩
    rw [← String.length_toList, hflat.length_eq, String.length_toList]
  · intro h
    exact exists_oneLine_of_lt_length h
  · obtain ⟨fields, hline⟩ := Observe.line_of_error? requestId h
    exact ⟨fields, oneLine 240 message, hline, rfl, length_oneLine_le 240 message⟩
  · exact ⟨oneLine 160 p.message, Logging.text_crashLine place p, rfl,
      length_oneLine_le 160 p.message⟩

/-- A text of exactly the limit is whole, one that is a character longer is cut, and the message of
an error keeps its line break out of the line. -/
theorem quotations_flat_and_short_sample :
    let report := "line1\nline2\rline3"
    let event : Observe.Event := .failed .resolve (.notFound "a\nb")
    (report.length ≤ 17 ∧ Flattened report.toList (oneLine 17 report).toList ∧
      (oneLine 17 report).length = report.length) ∧
    (16 < report.length ∧ ∃ kept : String, Flattened (report.toList.take 16) kept.toList ∧
      oneLine 16 report = kept ++ "...") ∧
    event.error? = some "not found: a\nb" ∧
      ∃ fields quoted, (event.line "r").text = fields ++ " error=" ++ quoted ∧
        quoted = oneLine 240 "not found: a\nb" ∧ quoted.length ≤ 243 := by
  intro report event
  obtain ⟨htexts, herrors, -⟩ := quotations_flat_and_short
  obtain ⟨-, -, hwhole, -, -⟩ := htexts 17 report
  obtain ⟨-, -, -, hcut, -⟩ := htexts 16 report
  have hwithin : report.length ≤ 17 := by decide
  have hbeyond : 16 < report.length := by decide
  exact ⟨⟨hwithin, hwhole hwithin⟩, ⟨hbeyond, hcut hbeyond⟩, rfl,
    herrors "r" event "not found: a\nb" rfl⟩

end JobBoard
