import JobBoard.Text.OneLine
import Mathlib.Data.List.Basic

/-!
# Line breaks

The line breaks of a text are its line feeds and carriage returns, in their order. A text joined
from parts has the breaks of its parts (`breaks_append`), and a text put on one line has none
(`breaks_oneLine`), however long it is and wherever it is cut.

To flatten a text is to put a space for each of its breaks and to keep all else (`Flattened`). A
text on one line is flattened as a whole or up to the limit, with three dots behind the cut
(`oneLine_of_length_le`, `exists_oneLine_of_lt_length`). The dots go beyond the limit, so a second
pass cuts again; it cuts at the same place and puts the dots back (`oneLine_oneLine`).
-/

set_option autoImplicit false

namespace JobBoard.Text

/-- Whether a character ends a line. -/
def isBreak (c : Char) : Bool := c == '\n' || c == '\r'

/-- The line breaks of a text. -/
def breaks (s : String) : List Char := s.toList.filter isBreak

theorem breaks_append (s t : String) : breaks (s ++ t) = breaks s ++ breaks t := by
  rw [breaks, String.toList_append, List.filter_append]
  rfl

theorem isBreak_eq_true_iff {c : Char} : isBreak c = true ↔ c = '\n' ∨ c = '\r' := by
  rw [isBreak, Bool.or_eq_true, beq_iff_eq, beq_iff_eq]

theorem breaks_eq_nil_iff {s : String} : breaks s = [] ↔ '\n' ∉ s.toList ∧ '\r' ∉ s.toList := by
  rw [breaks, List.filter_eq_nil_iff]
  constructor
  · intro h
    exact ⟨fun hmem => h '\n' hmem rfl, fun hmem => h '\r' hmem rfl⟩
  · rintro ⟨hfeed, hreturn⟩ c hc hbreak
    obtain rfl | rfl := isBreak_eq_true_iff.mp hbreak
    · exact hfeed hc
    · exact hreturn hc

/-! ## Flattening -/

theorem flattenChar_of_isBreak {c : Char} (h : isBreak c = true) : flattenChar c = ' ' :=
  if_pos (isBreak_eq_true_iff.mp h)

theorem flattenChar_of_not_isBreak {c : Char} (h : isBreak c = false) : flattenChar c = c := by
  refine if_neg fun hbreak => ?_
  rw [isBreak_eq_true_iff.mpr hbreak] at h
  exact Bool.noConfusion h

theorem isBreak_flattenChar (c : Char) : isBreak (flattenChar c) = false := by
  cases h : isBreak c with
  | true =>
    rw [flattenChar_of_isBreak h]
    rfl
  | false =>
    rw [flattenChar_of_not_isBreak h]
    exact h

theorem map_flattenChar_of_flat {cs : List Char} (h : ∀ c ∈ cs, isBreak c = false) :
    cs.map flattenChar = cs := by
  rw [List.map_congr_left fun c hc => flattenChar_of_not_isBreak (h c hc), List.map_id']

/-- The second text is the first with a space for each line break and with all else as it was. -/
inductive Flattened : List Char → List Char → Prop where
  | nil : Flattened [] []
  | broken {c : Char} {cs ds : List Char} :
    isBreak c = true → Flattened cs ds → Flattened (c :: cs) (' ' :: ds)
  | kept {c : Char} {cs ds : List Char} :
    isBreak c = false → Flattened cs ds → Flattened (c :: cs) (c :: ds)

theorem flattened_map (cs : List Char) : Flattened cs (cs.map flattenChar) := by
  induction cs with
  | nil => exact .nil
  | cons c cs ih =>
    rw [List.map_cons]
    cases h : isBreak c with
    | true =>
      rw [flattenChar_of_isBreak h]
      exact .broken h ih
    | false =>
      rw [flattenChar_of_not_isBreak h]
      exact .kept h ih

/-- A text has one flattened form, the one that is computed character by character. -/
theorem flattened_iff {cs ds : List Char} : Flattened cs ds ↔ ds = cs.map flattenChar := by
  constructor
  · intro h
    induction h with
    | nil => rfl
    | broken hbreak _ ih => rw [List.map_cons, flattenChar_of_isBreak hbreak, ih]
    | kept hflat _ ih => rw [List.map_cons, flattenChar_of_not_isBreak hflat, ih]
  · rintro rfl
    exact flattened_map cs

theorem Flattened.length_eq {cs ds : List Char} (h : Flattened cs ds) :
    ds.length = cs.length := by
  rw [flattened_iff.mp h, List.length_map]

/-! ## On one line -/

theorem oneLineList_of_length_le {limit : Nat} {cs : List Char} (h : cs.length ≤ limit) :
    oneLineList limit cs = cs.map flattenChar := by
  rw [oneLineList, List.length_map]
  exact if_neg (Nat.not_lt.mpr h)

theorem oneLineList_of_lt_length {limit : Nat} {cs : List Char} (h : limit < cs.length) :
    oneLineList limit cs = (cs.take limit).map flattenChar ++ ['.', '.', '.'] := by
  rw [oneLineList, List.length_map, List.map_take]
  exact if_pos h

/-- The dots at a cut are no breaks either. -/
theorem isBreak_of_mem_oneLineList {limit : Nat} {cs : List Char} {c : Char}
    (h : c ∈ oneLineList limit cs) : isBreak c = false := by
  have hflat : ∀ ds : List Char, c ∈ ds.map flattenChar → isBreak c = false := by
    intro ds hc
    obtain ⟨d, -, rfl⟩ := List.mem_map.mp hc
    exact isBreak_flattenChar d
  obtain hlt | hle := Nat.lt_or_ge limit cs.length
  · rw [oneLineList_of_lt_length hlt] at h
    obtain hkept | hdots := List.mem_append.mp h
    · exact hflat _ hkept
    · simp only [List.mem_cons, List.not_mem_nil, or_false, or_self] at hdots
      rw [hdots]
      rfl
  · rw [oneLineList_of_length_le hle] at h
    exact hflat cs h

theorem length_oneLineList_le (limit : Nat) (cs : List Char) :
    (oneLineList limit cs).length ≤ limit + 3 := by
  obtain hlt | hle := Nat.lt_or_ge limit cs.length
  · rw [oneLineList_of_lt_length hlt, List.length_append, List.length_map, List.length_take]
    exact Nat.add_le_add_right (Nat.min_le_left ..) 3
  · rw [oneLineList_of_length_le hle, List.length_map]
    exact Nat.le_add_right_of_le hle

/-- The first pass leaves nothing to flatten, so the second can differ only in the cut. -/
theorem oneLineList_oneLineList (limit : Nat) (cs : List Char) :
    oneLineList limit (oneLineList limit cs) = oneLineList limit cs := by
  have hflat : (oneLineList limit cs).map flattenChar = oneLineList limit cs :=
    map_flattenChar_of_flat fun _ hc => isBreak_of_mem_oneLineList hc
  obtain hlt | hle := Nat.lt_or_ge limit cs.length
  -- the dots make the first result too long, so it is cut as well: just in front of them
  · have hkept : ((cs.take limit).map flattenChar).length = limit := by
      rw [List.length_map, List.length_take, Nat.min_eq_left (Nat.le_of_lt hlt)]
    have hlength : limit < (oneLineList limit cs).length := by
      rw [oneLineList_of_lt_length hlt, List.length_append, hkept]
      exact Nat.lt_add_of_pos_right (Nat.succ_pos 2)
    have htake : (oneLineList limit cs).take limit = (cs.take limit).map flattenChar := by
      rw [oneLineList_of_lt_length hlt, List.take_left' hkept]
    rw [oneLineList_of_lt_length hlength, List.map_take, hflat, htake,
      ← oneLineList_of_lt_length hlt]
  · have hlength : (oneLineList limit cs).length ≤ limit := by
      rw [oneLineList_of_length_le hle, List.length_map]
      exact hle
    rw [oneLineList_of_length_le hlength, hflat]

theorem toList_oneLine (limit : Nat) (s : String) :
    (oneLine limit s).toList = oneLineList limit s.toList := String.toList_ofList

theorem breaks_oneLine (limit : Nat) (s : String) : breaks (oneLine limit s) = [] := by
  rw [breaks, toList_oneLine, List.filter_eq_nil_iff]
  intro c hc
  rw [isBreak_of_mem_oneLineList hc]
  exact Bool.false_ne_true

theorem length_oneLine_le (limit : Nat) (s : String) : (oneLine limit s).length ≤ limit + 3 := by
  rw [← String.length_toList, toList_oneLine]
  exact length_oneLineList_le limit s.toList

theorem oneLine_of_length_le {limit : Nat} {s : String} (h : s.length ≤ limit) :
    Flattened s.toList (oneLine limit s).toList := by
  rw [← String.length_toList] at h
  rw [toList_oneLine, oneLineList_of_length_le h]
  exact flattened_map s.toList

theorem exists_oneLine_of_lt_length {limit : Nat} {s : String} (h : limit < s.length) :
    ∃ kept : String, Flattened (s.toList.take limit) kept.toList ∧
      oneLine limit s = kept ++ "..." := by
  rw [← String.length_toList] at h
  refine ⟨String.ofList ((s.toList.take limit).map flattenChar), ?_, ?_⟩
  · rw [String.toList_ofList]
    exact flattened_map (s.toList.take limit)
  · rw [oneLine, oneLineList_of_lt_length h, String.ofList_append]

theorem oneLine_oneLine (limit : Nat) (s : String) :
    oneLine limit (oneLine limit s) = oneLine limit s := by
  rw [oneLine, toList_oneLine, oneLineList_oneLineList, ← oneLine]

/-- With no room at all only the dots are left, and they are cut off and put back. -/
example : oneLine 0 "\n" = "..." ∧ oneLine 0 "..." = "..." := by decide

end JobBoard.Text
