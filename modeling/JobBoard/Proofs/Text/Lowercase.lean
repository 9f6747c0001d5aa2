import JobBoard.Proofs.Text.Like
import JobBoard.Text.Blank
import JobBoard.Text.Lowercase
import Mathlib

/-!
# Lowercase texts

No character of a lowercase text is an ASCII capital, and none is a NUL unless the text it comes
from has one. Patterns of lowercase texts therefore match lowercase texts letter by letter
(`like_containing_lowerList_iff`).
-/

set_option autoImplicit false

namespace JobBoard.Text

/-- A character that is left alone when ASCII capitals are lowered, and no NUL. -/
def IsLowered (c : Char) : Prop := asciiLower c = c ∧ c ≠ '\x00'

/-! ## One character -/

/-- A character beyond the ASCII capitals is lowered. -/
theorem isLowered_of_lt {c : Char} (h : 0x5a < c.toNat) : IsLowered c := by
  have hZ : 'Z'.toNat = 0x5a := by decide
  constructor
  · unfold asciiLower
    rw [if_neg]
    rintro ⟨-, hle⟩
    have hnat : c.toNat ≤ 'Z'.toNat := hle
    omega
  · rintro rfl
    exact absurd h (by decide)

/-- A character before the ASCII capitals is lowered, unless it is NUL. -/
theorem isLowered_of_gt {c : Char} (h : c.toNat < 0x41) (hc : c ≠ '\x00') : IsLowered c := by
  have hA : 'A'.toNat = 0x41 := by decide
  refine ⟨?_, hc⟩
  unfold asciiLower
  rw [if_neg]
  rintro ⟨hle, -⟩
  have hnat : 'A'.toNat ≤ c.toNat := hle
  omega

/-- The runs lead to characters beyond the underscore, none of which is a surrogate. -/
theorem caseRuns_targets :
    ∀ r ∈ caseRuns, 0x5f < (r.first : Int) + r.delta ∧
      ((r.last : Int) + r.delta < 0xd800 ∨
        0xdfff < (r.first : Int) + r.delta ∧ (r.last : Int) + r.delta < 0x110000) := by
  decide +kernel

/-- A character is its own lowercase form and no ASCII capital, or that form is beyond the
underscore. -/
theorem lowerChar_cases (c : Char) :
    (lowerChar c = c ∧ (c.toNat < 0x41 ∨ 0x5a < c.toNat)) ∨ 0x5f < (lowerChar c).toNat := by
  unfold lowerChar
  split
  · rename_i hlow
    exact .inl ⟨rfl, .inl hlow⟩
  rename_i hcapital
  split
  · split
    · rename_i hletter
      have hvalid : (c.toNat + 32).isValidChar := .inl (by omega)
      rw [Char.toNat_ofNat, if_pos hvalid]
      exact .inr (by omega)
    · rename_i hbeyond
      exact .inl ⟨rfl, .inr (by omega)⟩
  rename_i hascii
  split
  · rename_i r hr
    -- the whole run is moved by one distance, so its ends bound the character
    obtain ⟨hfirst, hvalid⟩ := caseRuns_targets r (List.mem_of_find?_eq_some hr)
    have hcovers : r.covers c.toNat = true := by simpa using List.find?_some hr
    unfold CaseRun.covers at hcovers
    rw [Bool.and_eq_true, Bool.and_eq_true, decide_eq_true_eq, decide_eq_true_eq] at hcovers
    obtain ⟨⟨hge, hle⟩, -⟩ := hcovers
    have htarget : ((c.toNat : Int) + r.delta).toNat.isValidChar := by
      rcases hvalid with hvalid | ⟨hlow, hhigh⟩
      · exact .inl (by omega)
      · exact .inr (by omega)
    rw [Char.toNat_ofNat, if_pos htarget]
    exact .inr (by omega)
  · exact .inl ⟨rfl, .inr (by omega)⟩

/-- The simple lowercase form of a character. -/
theorem isLowered_lowerChar {c : Char} (hc : c ≠ '\x00') : IsLowered (lowerChar c) := by
  rcases lowerChar_cases c with ⟨hsame, hlow | hbeyond⟩ | hbeyond
  · rw [hsame]
    exact isLowered_of_gt hlow hc
  · rw [hsame]
    exact isLowered_of_lt hbeyond
  · exact isLowered_of_lt (by omega)

/-! ## Texts -/

/-- Every character of a lowercase text is lowered, by induction on what is left of the text. -/
theorem isLowered_of_mem_lowerFrom {cs : List Char} (hcs : NulFree cs) (before : List Char) :
    ∀ c ∈ lowerFrom before cs, IsLowered c := by
  induction cs generalizing before with
  | nil =>
    intro c hc
    exact nomatch hc
  | cons d rest ih =>
    have hd : d ≠ '\x00' := hcs d List.mem_cons_self
    have hrest : NulFree rest := fun c hc => hcs c (List.mem_cons_of_mem d hc)
    intro c hc
    unfold lowerFrom at hc
    simp only at hc
    rcases List.mem_append.1 hc with hc | hc
    · split at hc
      · split at hc <;> rw [List.mem_singleton] at hc <;> subst hc <;>
          exact isLowered_of_lt (by decide)
      · split at hc
        · have hdot : c = 'i' ∨ c = '\u0307' := by simpa using hc
          rcases hdot with rfl | rfl <;> exact isLowered_of_lt (by decide)
        · rw [List.mem_singleton] at hc
          subst hc
          exact isLowered_lowerChar hd
    · exact ih hrest _ c hc

theorem nulFree_lowerList {cs : List Char} (hcs : NulFree cs) : NulFree (lowerList cs) :=
  fun c hc => (isLowered_of_mem_lowerFrom hcs [] c hc).2

theorem map_asciiLower_lowerList {cs : List Char} (hcs : NulFree cs) :
    (lowerList cs).map asciiLower = lowerList cs := by
  have hsame : ∀ c ∈ lowerList cs, asciiLower c = id c := by
    intro c hc
    exact (isLowered_of_mem_lowerFrom hcs [] c hc).1
  rw [List.map_congr_left hsame, List.map_id]

/-- The pattern of a lowercase text covers exactly the lowercase texts that contain it. -/
theorem like_containing_lowerList_iff {cs text : List Char} (hcs : NulFree cs)
    (htext : NulFree text) :
    like (containing (lowerList cs)) (lowerList text) = true ↔
      lowerList cs <:+: lowerList text := by
  rw [like_containing_iff (nulFree_lowerList hcs) (nulFree_lowerList htext),
    map_asciiLower_lowerList hcs, map_asciiLower_lowerList htext]

theorem nulFree_trim {s : String} (h : NulFree s.toList) : NulFree (trim s).toList := by
  intro c hc
  refine h c ?_
  unfold trim trimList at hc
  rw [String.toList_ofList, List.mem_reverse] at hc
  have hfirst := (List.dropWhile_sublist isBlank).subset hc
  rw [List.mem_reverse] at hfirst
  exact (List.dropWhile_sublist isBlank).subset hfirst

end JobBoard.Text
