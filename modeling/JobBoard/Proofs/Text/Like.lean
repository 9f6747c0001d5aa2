import JobBoard.Text.Like
import Mathlib.Data.List.TakeWhile

/-!
# Containing patterns

The pattern that `containing` builds finds a literal text: it covers a text exactly if the literal
occurs in it up to the case of ASCII letters (`like_containing_iff`). Matching stops at a NUL, so
neither of the two may hold one.
-/

set_option autoImplicit false

namespace JobBoard.Text

/-- A text without a NUL, so that matching looks at all of it. -/
def NulFree (cs : List Char) : Prop := ∀ c ∈ cs, c ≠ '\x00'

instance (cs : List Char) : Decidable (NulFree cs) :=
  List.decidableBAll (fun c => c ≠ '\x00') cs

theorem untilNul_of_nulFree {cs : List Char} (h : NulFree cs) : untilNul cs = cs := by
  unfold untilNul
  rw [List.takeWhile_eq_self_iff]
  intro c hc
  simpa using h c hc

/-! ## The elements of a pattern -/

theorem nulFree_escape {cs : List Char} (h : NulFree cs) : NulFree (escape cs) := by
  induction cs with
  | nil => exact h
  | cons c rest ih =>
    have hc : c ≠ '\x00' := h c List.mem_cons_self
    have hrest : NulFree (escape rest) := ih fun d hd => h d (List.mem_cons_of_mem c hd)
    unfold escape
    split
    · intro d hd
      rcases List.mem_cons.1 hd with rfl | hd
      · decide
      rcases List.mem_cons.1 hd with rfl | hd
      · exact hc
      · exact hrest d hd
    · intro d hd
      rcases List.mem_cons.1 hd with rfl | hd
      · exact hc
      · exact hrest d hd

theorem nulFree_containing {cs : List Char} (h : NulFree cs) : NulFree (containing cs) := by
  intro d hd
  unfold containing at hd
  rcases List.mem_cons.1 hd with rfl | hd
  · decide
  rcases List.mem_append.1 hd with hd | hd
  · exact nulFree_escape h d hd
  · rw [List.mem_singleton] at hd
    subst hd
    decide

/-- An escaped text reads as its letters, whatever follows it. -/
theorem wilds_escape_append (cs rest : List Char) :
    wilds (escape cs ++ rest) = (wilds rest).map (cs.map Wild.letter ++ ·) := by
  induction cs with
  | nil => simp [escape]
  | cons c cs ih =>
    unfold escape
    split
    · show wilds ('\\' :: c :: (escape cs ++ rest)) = _
      rw [wilds, ih, Option.map_map]
      rfl
    · rename_i hplain
      have hescape : c ≠ '\\' := fun h => hplain (.inr (.inr h))
      have hany : c ≠ '%' := fun h => hplain (.inl h)
      have hone : c ≠ '_' := fun h => hplain (.inr (.inl h))
      show wilds (c :: (escape cs ++ rest)) = _
      rw [wilds, if_neg hany, if_neg hone, ih, Option.map_map]
      · rfl
      · exact fun h _ => hescape h
      · exact fun _ _ h _ => hescape h

theorem wilds_containing (cs : List Char) :
    wilds (containing cs) = some (.anyText :: (cs.map Wild.letter ++ [.anyText])) := by
  have hescape := wilds_escape_append cs ['%']
  have hlast : wilds ['%'] = some [.anyText] := by decide
  rw [hlast] at hescape
  have hfirst : wilds (containing cs) =
      (wilds (escape cs ++ ['%'])).map (Wild.anyText :: ·) := by
    unfold containing
    rw [wilds]
    · rfl
    · intro h
      exact absurd h (by decide)
    · intro _ _ h
      exact absurd h (by decide)
  rw [hfirst, hescape]
  rfl

/-! ## Matching -/

theorem matchWilds_anyText (text : List Char) : matchWilds [.anyText] text = true := by
  unfold matchWilds
  induction text with
  | nil => rfl
  | cons c rest ih =>
    unfold someTail
    rw [ih, Bool.or_true]

/-- Letters and then any text: the letters are how the text begins. -/
theorem matchWilds_letters_iff (cs text : List Char) :
    matchWilds (cs.map Wild.letter ++ [.anyText]) text = true ↔
      cs.map asciiLower <+: text.map asciiLower := by
  induction cs generalizing text with
  | nil =>
    constructor
    · intro _
      exact List.nil_prefix
    · intro _
      exact matchWilds_anyText text
  | cons c cs ih =>
    cases text with
    | nil => simp [matchWilds]
    | cons t text =>
      have hmatch : matchWilds ((c :: cs).map Wild.letter ++ [.anyText]) (t :: text) =
          (sameLetter c t && matchWilds (cs.map Wild.letter ++ [.anyText]) text) := rfl
      rw [hmatch, Bool.and_eq_true, ih, List.map_cons, List.map_cons, List.cons_prefix_cons]
      unfold sameLetter
      rw [beq_iff_eq]

/-- Any text before them: the letters occur somewhere. -/
theorem someTail_letters_iff (cs text : List Char) :
    someTail (matchWilds (cs.map Wild.letter ++ [.anyText])) text = true ↔
      cs.map asciiLower <:+: text.map asciiLower := by
  induction text with
  | nil =>
    unfold someTail
    rw [matchWilds_letters_iff, List.map_nil, List.prefix_nil, List.infix_nil]
  | cons t text ih =>
    unfold someTail
    rw [Bool.or_eq_true, matchWilds_letters_iff, ih, List.map_cons, List.infix_cons_iff]

/-- The pattern of a literal text covers exactly the texts that contain it, up to the case of ASCII
letters. -/
theorem like_containing_iff {cs text : List Char} (hcs : NulFree cs) (htext : NulFree text) :
    like (containing cs) text = true ↔ cs.map asciiLower <:+: text.map asciiLower := by
  unfold like
  rw [untilNul_of_nulFree (nulFree_containing hcs), untilNul_of_nulFree htext, wilds_containing]
  exact someTail_letters_iff cs text

end JobBoard.Text
