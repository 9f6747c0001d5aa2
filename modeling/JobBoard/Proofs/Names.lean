import JobBoard.Names
import Mathlib.Data.List.Nodup

/-!
# Lists of names in normal form

A list of names in normal form is empty exactly if only blanks were given
(`normalizeNames_eq_nil_iff`), and holds no name twice (`nodup_normalizeNames`). Of spellings that
differ in case one is kept; a name is sure to be kept if it is the only such spelling
(`mem_normalizeNames_of_sole`).
-/

set_option autoImplicit false

namespace JobBoard

open Text

/-! ## First occurrences -/

section Firsts

variable {α β : Type} [BEq β] (key : α → β)

theorem firstsBy_sublist (seen : List β) (l : List α) : (firstsBy key seen l).Sublist l := by
  induction l generalizing seen with
  | nil => exact List.Sublist.slnil
  | cons a rest ih =>
    rw [firstsBy]
    split
    · exact (ih seen).cons a
    · exact (ih (key a :: seen)).cons_cons a

/-- Items that are their own keys are kept at their first occurrences. -/
theorem firstsBy_id (seen l : List β) :
    firstsBy id seen l = (l.filter fun b => !seen.contains b).eraseDups := by
  induction l generalizing seen with
  | nil => rfl
  | cons a rest ih =>
    rw [firstsBy, id_eq, List.filter_cons]
    cases hseen : seen.contains a with
    | true => exact ih seen
    | false =>
      have hrest : rest.filter (fun b => !(a :: seen).contains b) =
          (rest.filter fun b => !seen.contains b).filter fun b => !b == a := by
        rw [List.filter_filter]
        apply List.filter_congr
        intro b _
        rw [List.contains_cons, Bool.not_or]
      show a :: firstsBy id (a :: seen) rest = (a :: _).eraseDups
      rw [ih, hrest, List.eraseDups_cons]

theorem firstsBy_id_nil (l : List β) : firstsBy id [] l = l.eraseDups := by
  rw [firstsBy_id]
  exact congrArg List.eraseDups (List.filter_eq_self.2 fun _ _ => rfl)

variable [LawfulBEq β]

/-- The items that are kept have keys that were not seen before, each another. -/
theorem nodup_map_firstsBy (seen : List β) (l : List α) :
    ((firstsBy key seen l).map key).Nodup ∧ ∀ a ∈ firstsBy key seen l, key a ∉ seen := by
  induction l generalizing seen with
  | nil =>
    constructor
    · exact List.nodup_nil
    · intro a ha
      exact nomatch ha
  | cons a rest ih =>
    rw [firstsBy]
    split
    · exact ih seen
    · rename_i hnew
      rw [List.contains_iff_mem] at hnew
      obtain ⟨hnodup, hunseen⟩ := ih (key a :: seen)
      constructor
      · rw [List.map_cons, List.nodup_cons]
        refine ⟨?_, hnodup⟩
        intro hmem
        obtain ⟨b, hb, hkey⟩ := List.mem_map.1 hmem
        exact hunseen b hb (hkey ▸ List.mem_cons_self)
      · intro b hb
        rcases List.mem_cons.1 hb with rfl | hb
        · exact hnew
        · exact fun hseen => hunseen b hb (List.mem_cons_of_mem _ hseen)

theorem nodup_eraseDups (l : List β) : l.eraseDups.Nodup := by
  rw [← firstsBy_id_nil, ← List.map_id (firstsBy id [] l)]
  exact (nodup_map_firstsBy id [] l).1

/-- For every item one with the same key is kept, unless the key was seen before. -/
theorem exists_mem_firstsBy (seen : List β) {l : List α} {a : α} (ha : a ∈ l)
    (hnew : key a ∉ seen) : ∃ b ∈ firstsBy key seen l, key b = key a := by
  induction l generalizing seen with
  | nil => exact nomatch ha
  | cons c rest ih =>
    rw [firstsBy]
    split
    · rename_i hseen
      rw [List.contains_iff_mem] at hseen
      rcases List.mem_cons.1 ha with rfl | ha
      · exact absurd hseen hnew
      · exact ih seen ha hnew
    -- a new item is kept: it has the key, or the key is still new for the rest
    · by_cases hkey : key c = key a
      · exact ⟨c, List.mem_cons_self, hkey⟩
      · rcases List.mem_cons.1 ha with rfl | ha
        · exact absurd rfl hkey
        · have hnew' : key a ∉ key c :: seen := by
            intro hmem
            rcases List.mem_cons.1 hmem with heq | hmem
            · exact hkey heq.symm
            · exact hnew hmem
          obtain ⟨b, hb, hb'⟩ := ih (key c :: seen) ha hnew'
          exact ⟨b, List.mem_cons_of_mem c hb, hb'⟩

/-- It does not matter how what was seen is listed. -/
theorem firstsBy_congr {seen seen' : List β} (h : ∀ b, b ∈ seen ↔ b ∈ seen') (l : List α) :
    firstsBy key seen l = firstsBy key seen' l := by
  induction l generalizing seen seen' with
  | nil => rfl
  | cons a rest ih =>
    have hcontains : seen.contains (key a) = seen'.contains (key a) := by
      rw [Bool.eq_iff_iff, List.contains_iff_mem, List.contains_iff_mem, h]
    have hcons : ∀ b, b ∈ key a :: seen ↔ b ∈ key a :: seen' := by
      intro b
      rw [List.mem_cons, List.mem_cons, h]
    rw [firstsBy, firstsBy, hcontains, ih h, ih hcons]

/-- Where all keys are different, the items are kept whose key was not seen before. -/
theorem firstsBy_eq_filter {seen : List β} {l : List α} (hl : (l.map key).Nodup) :
    firstsBy key seen l = l.filter fun a => !seen.contains (key a) := by
  induction l generalizing seen with
  | nil => rfl
  | cons a rest ih =>
    rw [List.map_cons, List.nodup_cons] at hl
    rw [firstsBy, List.filter_cons, ih hl.2, ih hl.2]
    cases hseen : seen.contains (key a) with
    | true => rfl
    | false =>
      have hrest : rest.filter (fun b => !(key a :: seen).contains (key b)) =
          rest.filter fun b => !seen.contains (key b) := by
        apply List.filter_congr
        intro b hb
        have hne : key b ≠ key a := fun heq => hl.1 (heq ▸ List.mem_map_of_mem hb)
        simp [hne]
      rw [hrest]
      rfl

/-- Where all keys are different and new, everything is kept. -/
theorem firstsBy_eq_self {seen : List β} {l : List α} (hl : (l.map key).Nodup)
    (hnew : ∀ a ∈ l, key a ∉ seen) : firstsBy key seen l = l := by
  rw [firstsBy_eq_filter key hl, List.filter_eq_self]
  intro a ha
  simp [hnew a ha]

/-- The keys that are kept are the keys of all items, none counting as seen. -/
theorem mem_map_firstsBy_nil (l : List α) (b : β) :
    b ∈ (firstsBy key [] l).map key ↔ b ∈ l.map key := by
  rw [List.mem_map, List.mem_map]
  constructor
  · rintro ⟨a, ha, rfl⟩
    exact ⟨a, (firstsBy_sublist key [] l).subset ha, rfl⟩
  · rintro ⟨a, ha, rfl⟩
    exact exists_mem_firstsBy key [] ha List.not_mem_nil

/-- Whether the first item is kept or not, its key counts as seen for the rest. -/
theorem firstsBy_cons (seen : List β) (a : α) (l : List α) :
    firstsBy key seen (a :: l) =
      (if seen.contains (key a) then [] else [a]) ++ firstsBy key (seen ++ [key a]) l := by
  rw [firstsBy]
  split
  · rename_i hseen
    rw [List.contains_iff_mem] at hseen
    rw [List.nil_append]
    apply firstsBy_congr
    intro b
    rw [List.mem_append, List.mem_singleton]
    exact ⟨.inl, fun h => h.elim id fun hb => hb ▸ hseen⟩
  · rw [List.singleton_append]
    congr 1
    apply firstsBy_congr
    intro b
    rw [List.mem_append, List.mem_singleton, List.mem_cons, or_comm]

/-- In a second list everything counts as seen that is in the first. -/
theorem firstsBy_append (seen : List β) (l m : List α) :
    firstsBy key seen (l ++ m) = firstsBy key seen l ++ firstsBy key (seen ++ l.map key) m := by
  induction l generalizing seen with
  | nil => rw [List.nil_append, List.map_nil, List.append_nil, firstsBy, List.nil_append]
  | cons a rest ih =>
    rw [List.cons_append, firstsBy_cons, firstsBy_cons, ih, List.append_assoc, List.append_assoc,
      List.map_cons, List.singleton_append]

/-- An item is kept exactly if no item before it has its key. -/
theorem firstsBy_filterMap {γ : Type} (f : γ → Option α) (before l : List γ) :
    firstsBy key ((before.filterMap f).map key) (l.filterMap f) =
      (l.zipIdx before.length).filterMap fun p =>
        (f p.1).filter fun a =>
          !((((before ++ l).take p.2).filterMap f).map key).contains (key a) := by
  induction l generalizing before with
  | nil => rfl
  | cons c rest ih =>
    have hrest := ih (before ++ [c])
    rw [List.append_assoc, List.singleton_append, List.length_append, List.length_singleton,
      List.filterMap_append, List.map_append] at hrest
    rw [List.zipIdx_cons, List.filterMap_cons, List.filterMap_cons, List.take_left, ← hrest]
    cases hc : f c with
    | none => simp [hc]
    | some a =>
      have hone : ([c].filterMap f).map key = [key a] := by simp [hc]
      rw [hone, firstsBy_cons, Option.filter_some]
      by_cases hseen : ((before.filterMap f).map key).contains (key a) = true
      · simp only [hseen, Bool.not_true, if_true, Bool.false_eq_true, if_false, List.nil_append]
      · simp only [hseen, Bool.not_false, Bool.false_eq_true, if_true, if_false,
          List.singleton_append]

end Firsts

/-! ## Normal forms -/

theorem collapse_eq_nil_iff (cs : List Char) : collapse cs = [] ↔ cs = [] := by
  cases cs with
  | nil => simp [collapse, collapseFrom]
  | cons c rest =>
    rw [collapse, collapseFrom]
    split <;> simp

/-- A name has no normal form exactly if it is blank. -/
theorem normalizeName_eq_none_iff (name : String) : normalizeName name = none ↔ trim name = "" := by
  have hblank : normalizeList name.toList = [] ↔ trim name = "" := by
    rw [normalizeList, collapse_eq_nil_iff, trim, String.ofList_eq_empty_iff]
  rw [← hblank, normalizeName]
  cases normalizeList name.toList with
  | nil => simp
  | cons c cs => simp

theorem mem_filterMap_of_mem_normalizeNames {list : List String} {name : String}
    (h : name ∈ normalizeNames list) : ∃ entry ∈ list, normalizeName entry = some name :=
  List.mem_filterMap.1 ((firstsBy_sublist lowercase [] _).subset h)

/-- No two names differ only in case, so none occurs twice. -/
theorem nodup_normalizeNames (list : List String) : (normalizeNames list).Nodup :=
  (nodup_map_firstsBy lowercase [] _).1.of_map lowercase

/-- A spelling is kept if no other one of the list differs from it only in case. -/
theorem mem_normalizeNames_of_sole {list : List String} {entry name : String}
    (hentry : entry ∈ list) (hname : normalizeName entry = some name)
    (hsole : ∀ other ∈ list, ∀ n, normalizeName other = some n → lowercase n = lowercase name →
      n = name) : name ∈ normalizeNames list := by
  have hmem : name ∈ list.filterMap normalizeName := List.mem_filterMap.2 ⟨entry, hentry, hname⟩
  obtain ⟨n, hn, hcase⟩ := exists_mem_firstsBy lowercase [] hmem List.not_mem_nil
  obtain ⟨other, hother, hother'⟩ := mem_filterMap_of_mem_normalizeNames hn
  obtain rfl := hsole other hother n hother' hcase
  exact hn

theorem normalizeNames_eq_nil_iff (list : List String) :
    normalizeNames list = [] ↔ ∀ entry ∈ list, trim entry = "" := by
  constructor
  · intro h entry hentry
    rw [← normalizeName_eq_none_iff, Option.eq_none_iff_forall_not_mem]
    intro name hname
    have hmem : name ∈ list.filterMap normalizeName := List.mem_filterMap.2 ⟨entry, hentry, hname⟩
    obtain ⟨n, hn, -⟩ := exists_mem_firstsBy lowercase [] hmem List.not_mem_nil
    rw [show firstsBy lowercase [] (list.filterMap normalizeName) = [] from h] at hn
    exact nomatch hn
  · intro h
    rw [List.eq_nil_iff_forall_not_mem]
    intro name hname
    obtain ⟨entry, hentry, hname⟩ := mem_filterMap_of_mem_normalizeNames hname
    rw [(normalizeName_eq_none_iff entry).2 (h entry hentry)] at hname
    exact nomatch hname

end JobBoard
