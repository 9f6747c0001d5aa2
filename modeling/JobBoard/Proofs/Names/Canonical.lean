import JobBoard.Proofs.Names
import JobBoard.Proofs.Text.Words

/-!
# Names in canonical form

The normal form of a name consists of its words with single spaces between them, and the names of
that shape are the ones that are their own normal form (`normalizeName_eq_self_iff`). A list of
names in normal form depends on the words of its entries only (`normalizeNames_congr`), is left as
it is (`normalizeNames_idem`) and can be computed from the beginning piece by piece
(`normalizeNames_append`). `normalizeNames_canonical` puts this together.
-/

set_option autoImplicit false

namespace JobBoard

open Text

/-! ## One name -/

theorem normalizeName_eq_some_iff (name n : String) :
    normalizeName name = some n ↔
      words name.toList ≠ [] ∧ n.toList = joinWords (words name.toList) := by
  have hlist : normalizeList name.toList = joinWords (words name.toList) :=
    collapse_trimList name.toList
  rw [normalizeName, hlist]
  cases hjoined : joinWords (words name.toList) with
  | nil =>
    have hnil : words name.toList = [] := by
      by_contra hne
      exact (isNormal_joinWords hne fun _ => isWord_of_mem_words).nonempty hjoined
    simp [hnil]
  | cons c cs =>
    have hne : words name.toList ≠ [] := by
      intro hnil
      rw [hnil] at hjoined
      cases hjoined
    rw [Option.some_inj]
    constructor
    · rintro rfl
      exact ⟨hne, String.toList_ofList⟩
    · rintro ⟨-, hn⟩
      rw [← hn, String.ofList_toList]

theorem normalizeName_eq_none_iff_blank (name : String) :
    normalizeName name = none ↔ ∀ c ∈ name.toList, isBlank c = true := by
  rw [← words_eq_nil_iff, Option.eq_none_iff_forall_ne_some]
  constructor
  · intro h
    by_contra hne
    exact h _ ((normalizeName_eq_some_iff _ _).2 ⟨hne, String.toList_ofList⟩)
  · intro hnil n hn
    exact ((normalizeName_eq_some_iff _ _).1 hn).1 hnil

theorem isNormal_normalizeName {name n : String} (h : normalizeName name = some n) :
    IsNormal n.toList := by
  obtain ⟨hne, hn⟩ := (normalizeName_eq_some_iff _ _).1 h
  rw [hn]
  exact isNormal_joinWords hne fun _ => isWord_of_mem_words

/-- The names that are their own normal form are the texts of words with single spaces. -/
theorem normalizeName_eq_self_iff (name : String) :
    normalizeName name = some name ↔ IsNormal name.toList := by
  constructor
  · exact isNormal_normalizeName
  · intro h
    have hself : name.toList = joinWords (words name.toList) := by
      rw [← collapse_trimList, h.collapse_trimList_eq_self]
    refine (normalizeName_eq_some_iff _ _).2 ⟨?_, hself⟩
    intro hnil
    rw [hnil] at hself
    exact h.nonempty hself

/-! ## Lists of names -/

/-- The words of the names of a list, blank ones left out. -/
def wordings (list : List String) : List (List (List Char)) :=
  (list.map fun name => words name.toList).filter fun ws => !ws.isEmpty

theorem filterMap_normalizeName (list : List String) :
    list.filterMap normalizeName = (wordings list).map fun ws => String.ofList (joinWords ws) := by
  induction list with
  | nil => rfl
  | cons name rest ih =>
    rw [List.filterMap_cons, wordings, List.map_cons, List.filter_cons]
    cases hname : normalizeName name with
    | none =>
      have hnil : words name.toList = [] :=
        (words_eq_nil_iff _).2 ((normalizeName_eq_none_iff_blank name).1 hname)
      rw [hnil]
      exact ih
    | some n =>
      obtain ⟨hne, hn⟩ := (normalizeName_eq_some_iff name n).1 hname
      rw [if_pos (by simpa using hne), List.map_cons, ← hn, String.ofList_toList]
      exact congrArg (n :: ·) ih

/-- The blanks do not matter, neither whole entries nor those around and between words. -/
theorem normalizeNames_congr {a b : List String} (h : wordings a = wordings b) :
    normalizeNames a = normalizeNames b := by
  rw [normalizeNames, normalizeNames, filterMap_normalizeName, filterMap_normalizeName, h]

theorem isNormal_of_mem_normalizeNames {list : List String} {n : String}
    (h : n ∈ normalizeNames list) : IsNormal n.toList := by
  obtain ⟨entry, -, hentry⟩ := mem_filterMap_of_mem_normalizeNames h
  exact isNormal_normalizeName hentry

theorem nodup_lowercase_normalizeNames (list : List String) :
    ((normalizeNames list).map lowercase).Nodup :=
  (nodup_map_firstsBy lowercase [] _).1

/-- An entry yields its normal form exactly if no entry before it differs from it only in case. -/
theorem normalizeNames_eq_filterMap_zipIdx (list : List String) :
    normalizeNames list = list.zipIdx.filterMap fun p =>
      (normalizeName p.1).filter fun n =>
        lowercase n ∉ ((list.take p.2).filterMap normalizeName).map lowercase := by
  have h := firstsBy_filterMap lowercase normalizeName [] list
  simp only [List.contains_eq_mem, ← decide_not] at h
  exact h

theorem exists_mem_normalizeNames {list : List String} {entry m : String} (h : entry ∈ list)
    (hm : normalizeName entry = some m) :
    ∃ n ∈ normalizeNames list, lowercase n = lowercase m :=
  exists_mem_firstsBy lowercase [] (List.mem_filterMap.2 ⟨entry, h, hm⟩) List.not_mem_nil

/-- Names in normal form are left as they are. -/
theorem filterMap_normalizeNames (list : List String) :
    (normalizeNames list).filterMap normalizeName = normalizeNames list := by
  rw [List.filterMap_congr fun n hn =>
    (normalizeName_eq_self_iff n).2 (isNormal_of_mem_normalizeNames hn), List.filterMap_some]

theorem normalizeNames_idem (list : List String) :
    normalizeNames (normalizeNames list) = normalizeNames list := by
  show firstsBy lowercase [] ((normalizeNames list).filterMap normalizeName) = _
  rw [filterMap_normalizeNames]
  exact firstsBy_eq_self lowercase (nodup_lowercase_normalizeNames list) fun _ _ =>
    List.not_mem_nil

/-- What comes first may be put into normal form first. -/
theorem normalizeNames_append (a b : List String) :
    normalizeNames (a ++ b) = normalizeNames (normalizeNames a ++ b) := by
  have hsplit : ∀ list : List String, normalizeNames (list ++ b) = normalizeNames list ++
      firstsBy lowercase ((list.filterMap normalizeName).map lowercase)
        (b.filterMap normalizeName) := by
    intro list
    rw [normalizeNames, List.filterMap_append, firstsBy_append, List.nil_append]
    rfl
  rw [hsplit, hsplit, normalizeNames_idem, filterMap_normalizeNames]
  congr 1
  -- the first spellings have the keys of all
  exact firstsBy_congr lowercase (fun key => (mem_map_firstsBy_nil lowercase _ key).symm) _

/-- Every name in normal form is made of words with single spaces between them, and no two differ
only in case. They are the normal forms of the entries that are not blank, in their order,
each unless one before it differs from it only in case; so every such entry has one with its
lowercase form. Normal forms are left as they are, blank entries and the blanks around and between
words do not matter, and the beginning of a list may be put into normal form first. -/
theorem normalizeNames_canonical (xs : List String) :
    (∀ n ∈ normalizeNames xs, IsNormal n.toList) ∧
    ((normalizeNames xs).map lowercase).Nodup ∧
    (normalizeNames xs = xs.zipIdx.filterMap fun p =>
      (normalizeName p.1).filter fun n =>
        lowercase n ∉ ((xs.take p.2).filterMap normalizeName).map lowercase) ∧
    (∀ x, normalizeName x = none ↔ ∀ c ∈ x.toList, isBlank c = true) ∧
    (∀ x ∈ xs, ∀ m, normalizeName x = some m →
      ∃ n ∈ normalizeNames xs, lowercase n = lowercase m) ∧
    normalizeNames (normalizeNames xs) = normalizeNames xs ∧
    (∀ ys, wordings ys = wordings xs → normalizeNames ys = normalizeNames xs) ∧
    ∀ ys, normalizeNames (xs ++ ys) = normalizeNames (normalizeNames xs ++ ys) :=
  ⟨fun _ => isNormal_of_mem_normalizeNames, nodup_lowercase_normalizeNames xs,
    normalizeNames_eq_filterMap_zipIdx xs, normalizeName_eq_none_iff_blank,
    fun _ hx _ => exists_mem_normalizeNames hx, normalizeNames_idem xs,
    fun _ => normalizeNames_congr, normalizeNames_append xs⟩

/-- Two spellings and a blank entry, the second time with other blanks. -/
theorem normalizeNames_canonical_sample :
    wordings ["\u00a0Rust  Lang", "rust\tlang", "Go "] =
      wordings ["Rust Lang", " ", "rust lang", "Go"] ∧
    normalizeNames ["\u00a0Rust  Lang", "rust\tlang", "Go "] =
      normalizeNames ["Rust Lang", " ", "rust lang", "Go"] ∧
    normalizeName "rust lang" = some "rust lang" ∧
    ∃ n ∈ normalizeNames ["Rust Lang", " ", "rust lang", "Go"],
      lowercase n = lowercase "rust lang" := by
  have hwords : wordings ["\u00a0Rust  Lang", "rust\tlang", "Go "] =
      wordings ["Rust Lang", " ", "rust lang", "Go"] := by
    decide
  have hname : normalizeName "rust lang" = some "rust lang" := by decide
  obtain ⟨-, -, -, -, hmem, -, hcongr, -⟩ :=
    normalizeNames_canonical ["Rust Lang", " ", "rust lang", "Go"]
  exact ⟨hwords, hcongr _ hwords, hname, hmem "rust lang" (by decide) _ hname⟩

end JobBoard
