import JobBoard.Observe.Level
import JobBoard.Proofs.Text.Words

/-!
# How a level is spelled

Every level has a word, and a warning has two. A level is recognized in a text exactly if a word for
it stands there in capitals or small letters of ASCII, with nothing around it but blanks
(`parse_eq_ok_iff`).
-/

set_option autoImplicit false

namespace JobBoard.Observe.Level

/-- The words for a level. -/
def words : Level → List String
  | .error => ["error"]
  | .warn => ["warn", "warning"]
  | .info => ["info"]
  | .debug => ["debug"]
  | .trace => ["trace"]

/-- A text spells a level if one of its words is left of it without the blanks at its ends, up to
ASCII case. -/
def Spelled (l : Level) (s : String) : Prop :=
  ∃ core, Text.IsTrimmed core s.toList ∧ String.ofList (core.map Text.asciiLower) ∈ l.words

theorem spelled_iff {l : Level} {s : String} :
    l.Spelled s ↔ String.ofList ((Text.trimList s.toList).map Text.asciiLower) ∈ l.words := by
  constructor
  · rintro ⟨core, hcore, hword⟩
    rwa [hcore.trimList_eq]
  · intro hword
    exact ⟨_, Text.isTrimmed_trimList _, hword⟩

/-- A level is recognized exactly where it is spelled. -/
theorem parse_eq_ok_iff {l : Level} {s : String} : parse s = .ok l ↔ l.Spelled s := by
  rw [spelled_iff, parse]
  generalize String.ofList ((Text.trimList s.toList).map Text.asciiLower) = word
  constructor
  · intro h
    split_ifs at h <;> cases h <;> simp [words, *]
  · intro hword
    cases l <;> simp only [words, List.mem_cons, List.not_mem_nil, or_false] at hword
    case warn => rcases hword with rfl | rfl <;> rfl
    all_goals
      rw [hword]
      rfl

theorem parse_cases (s : String) :
    (∃ l : Level, l.Spelled s ∧ parse s = .ok l) ∨
      (∀ l : Level, ¬l.Spelled s) ∧ ∃ word, parse s = .error word := by
  cases h : parse s with
  | ok l => exact .inl ⟨l, parse_eq_ok_iff.mp h, rfl⟩
  | error word =>
    refine .inr ⟨fun l hl => ?_, word, rfl⟩
    rw [parse_eq_ok_iff.mpr hl] at h
    exact nomatch h

end JobBoard.Observe.Level
