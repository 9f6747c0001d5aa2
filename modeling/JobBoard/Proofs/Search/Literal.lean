import JobBoard.Proofs.Text.Occurrence
import JobBoard.Search.Composer

/-!
# Texts that match literally

The rules of the pattern language as a relation (`Likes`), which the matcher decides
(`like_iff_likes`). By these rules an escaped text covers itself alone, up to the case of ASCII
letters (`likes_escape_iff`), and lowercasing neither adds nor drops a character with a meaning in
patterns (`marks_lowercase`). The main theorem is `patternOf_matches_literally`.
-/

set_option autoImplicit false

namespace JobBoard

namespace Text

/-! ## The rules of patterns -/

/-- The characters with a meaning in patterns. -/
def IsMark (c : Char) : Prop := c = '%' ∨ c = '_' ∨ c = '\\'

instance (c : Char) : Decidable (IsMark c) := inferInstanceAs (Decidable (_ ∨ _ ∨ _))

/-- A pattern covers the whole of a text. -/
inductive Likes : List Char → List Char → Prop where
  | done : Likes [] []
  | anyText {pattern text : List Char} (front : List Char) (rest : Likes pattern text) :
      Likes ('%' :: pattern) (front ++ text)
  | anyChar {pattern text : List Char} (a : Char) (rest : Likes pattern text) :
      Likes ('_' :: pattern) (a :: text)
  /-- After the escape character any character stands for itself. -/
  | escaped {pattern text : List Char} {c a : Char} (same : asciiLower c = asciiLower a)
      (rest : Likes pattern text) : Likes ('\\' :: c :: pattern) (a :: text)
  | plain {pattern text : List Char} {c a : Char} (unmarked : ¬ IsMark c)
      (same : asciiLower c = asciiLower a) (rest : Likes pattern text) :
      Likes (c :: pattern) (a :: text)

/-- The texts that one element of a pattern stands for. -/
def Wild.Covers : Wild → List Char → Prop
  | .anyText, _ => True
  | .anyChar, front => ∃ a, front = [a]
  | .letter c, front => ∃ a, front = [a] ∧ asciiLower c = asciiLower a

/-- An element stands for the front of a text, and the rest of the text has a property. -/
def Wild.Leaves (w : Wild) (P : List Char → Prop) (text : List Char) : Prop :=
  ∃ front rest, text = front ++ rest ∧ w.Covers front ∧ P rest

theorem Wild.Leaves.congr {w : Wild} {P Q : List Char → Prop} (h : ∀ rest, P rest ↔ Q rest)
    (text : List Char) : w.Leaves P text ↔ w.Leaves Q text := by
  simp only [Wild.Leaves, h]

variable {pattern text : List Char} {c : Char}

theorem likes_nil_iff : Likes [] text ↔ text = [] := by
  constructor
  · intro h
    cases h with
    | done => rfl
  · rintro rfl
    exact .done

theorem likes_anyText_iff :
    Likes ('%' :: pattern) text ↔ Wild.anyText.Leaves (Likes pattern) text := by
  constructor
  · intro h
    cases h with
    | anyText front rest => exact ⟨front, _, rfl, trivial, rest⟩
    | plain unmarked => exact absurd (.inl rfl) unmarked
  · rintro ⟨front, rest, rfl, -, h⟩
    exact .anyText front h

theorem likes_anyChar_iff :
    Likes ('_' :: pattern) text ↔ Wild.anyChar.Leaves (Likes pattern) text := by
  constructor
  · intro h
    cases h with
    | anyChar a rest => exact ⟨[a], _, rfl, ⟨a, rfl⟩, rest⟩
    | plain unmarked => exact absurd (.inr (.inl rfl)) unmarked
  · rintro ⟨_, rest, rfl, ⟨a, rfl⟩, h⟩
    exact .anyChar a h

theorem likes_escaped_iff :
    Likes ('\\' :: c :: pattern) text ↔ (Wild.letter c).Leaves (Likes pattern) text := by
  constructor
  · intro h
    cases h with
    | escaped same rest => exact ⟨[_], _, rfl, ⟨_, rfl, same⟩, rest⟩
    | plain unmarked => exact absurd (.inr (.inr rfl)) unmarked
  · rintro ⟨_, rest, rfl, ⟨a, rfl, same⟩, h⟩
    exact .escaped same h

theorem likes_plain_iff (hc : ¬ IsMark c) :
    Likes (c :: pattern) text ↔ (Wild.letter c).Leaves (Likes pattern) text := by
  constructor
  · intro h
    cases h with
    | anyText => exact absurd (.inl rfl) hc
    | anyChar => exact absurd (.inr (.inl rfl)) hc
    | escaped => exact absurd (.inr (.inr rfl)) hc
    | plain _ same rest => exact ⟨[_], _, rfl, ⟨_, rfl, same⟩, rest⟩
  · rintro ⟨_, rest, rfl, ⟨a, rfl, same⟩, h⟩
    exact .plain hc same h

/-- An escape character at the end of a pattern escapes nothing. -/
theorem not_likes_escape : ¬ Likes ['\\'] text := by
  intro h
  cases h with
  | plain unmarked => exact unmarked (.inr (.inr rfl))

/-! ## The matcher -/

/-- Looking for a tail with a property skips any front of the text. -/
theorem someTail_eq_true_iff (test : List Char → Bool) (text : List Char) :
    someTail test text = true ↔ Wild.anyText.Leaves (fun rest => test rest = true) text := by
  induction text with
  | nil =>
    constructor
    · intro h
      exact ⟨[], [], rfl, trivial, h⟩
    · rintro ⟨front, rest, heq, -, h⟩
      obtain ⟨rfl, rfl⟩ := List.append_eq_nil_iff.1 heq.symm
      exact h
  | cons a tail ih =>
    rw [someTail, Bool.or_eq_true, ih]
    constructor
    · rintro (h | ⟨front, rest, rfl, -, h⟩)
      · exact ⟨[], a :: tail, rfl, trivial, h⟩
      · exact ⟨a :: front, rest, rfl, trivial, h⟩
    · rintro ⟨front, rest, heq, -, h⟩
      cases front with
      | nil =>
        obtain rfl : a :: tail = rest := heq
        exact .inl h
      | cons b front =>
        obtain ⟨rfl, rfl⟩ := List.cons.inj heq
        exact .inr ⟨front, rest, rfl, trivial, h⟩

/-- The elements of a pattern are matched one after the other. -/
theorem matchWilds_cons_iff (w : Wild) (ws : List Wild) (text : List Char) :
    matchWilds (w :: ws) text = true ↔ w.Leaves (fun rest => matchWilds ws rest = true) text := by
  cases w with
  | anyText => exact someTail_eq_true_iff (matchWilds ws) text
  | anyChar =>
    constructor
    · intro h
      cases text with
      | nil => exact nomatch h
      | cons a tail => exact ⟨[a], tail, rfl, ⟨a, rfl⟩, h⟩
    · rintro ⟨_, rest, rfl, ⟨a, rfl⟩, h⟩
      exact h
  | letter c =>
    constructor
    · intro h
      cases text with
      | nil => exact nomatch h
      | cons a tail =>
        rw [matchWilds, Bool.and_eq_true, sameLetter, beq_iff_eq] at h
        exact ⟨[a], tail, rfl, ⟨a, rfl, h.1⟩, h.2⟩
    · rintro ⟨_, rest, rfl, ⟨a, rfl, same⟩, h⟩
      rw [List.singleton_append, matchWilds, Bool.and_eq_true, sameLetter, beq_iff_eq]
      exact ⟨same, h⟩

/-- A pattern can be read, and what it reads as covers a text. -/
def Reads (pattern text : List Char) : Prop :=
  ∃ ws, wilds pattern = some ws ∧ matchWilds ws text = true

theorem reads_cons_iff {whole : List Char} {w : Wild}
    (hwhole : wilds whole = (wilds pattern).map (w :: ·)) :
    Reads whole text ↔ w.Leaves (Reads pattern) text := by
  rw [Reads, hwhole]
  constructor
  · rintro ⟨_, hread, hmatch⟩
    obtain ⟨ws, hws, rfl⟩ := Option.map_eq_some_iff.1 hread
    obtain ⟨front, rest, heq, hcovers, hrest⟩ := (matchWilds_cons_iff w ws text).1 hmatch
    exact ⟨front, rest, heq, hcovers, ws, hws, hrest⟩
  · rintro ⟨front, rest, heq, hcovers, ws, hws, hrest⟩
    exact ⟨w :: ws, Option.map_eq_some_iff.2 ⟨ws, hws, rfl⟩,
      (matchWilds_cons_iff w ws text).2 ⟨front, rest, heq, hcovers, hrest⟩⟩

/-- What a pattern reads as covers a text exactly if the rules say so, by induction on the
pattern. -/
theorem reads_iff_likes (pattern text : List Char) : Reads pattern text ↔ Likes pattern text := by
  induction pattern using wilds.induct generalizing text with
  | case1 =>
    rw [likes_nil_iff]
    simp [Reads, wilds, matchWilds]
  | case2 =>
    constructor
    · rintro ⟨ws, hws, -⟩
      cases hws
    · intro h
      exact absurd h not_likes_escape
  | case3 c pattern ih =>
    rw [likes_escaped_iff, reads_cons_iff (wilds.eq_3 c pattern)]
    exact Wild.Leaves.congr ih text
  | case4 c pattern hlone hescape ih =>
    have hwilds := wilds.eq_4 c pattern hlone hescape
    by_cases hany : c = '%'
    · subst hany
      rw [likes_anyText_iff, reads_cons_iff hwilds]
      exact Wild.Leaves.congr ih text
    by_cases hone : c = '_'
    · subst hone
      rw [likes_anyChar_iff, reads_cons_iff hwilds]
      exact Wild.Leaves.congr ih text
    -- an escape character that is not the last one escapes what follows it
    have hnot : c ≠ '\\' := by
      rintro rfl
      cases pattern with
      | nil => exact hlone rfl rfl
      | cons d rest => exact hescape d rest rfl rfl
    have hunmarked : ¬ IsMark c := by
      rintro (h | h | h)
      · exact hany h
      · exact hone h
      · exact hnot h
    rw [if_neg hany, if_neg hone] at hwilds
    rw [likes_plain_iff hunmarked, reads_cons_iff hwilds]
    exact Wild.Leaves.congr ih text

/-- The matcher decides the rules. -/
theorem like_iff_likes (hpattern : NulFree pattern) (htext : NulFree text) :
    like pattern text = true ↔ Likes pattern text := by
  rw [← reads_iff_likes, like, untilNul_of_nulFree hpattern, untilNul_of_nulFree htext, Reads]
  cases wilds pattern with
  | none => simp
  | some ws => simp

/-! ## Escaped texts -/

/-- An escaped text covers itself alone, up to the case of ASCII letters. -/
theorem likes_escape_iff (cs text : List Char) :
    Likes (escape cs) text ↔ text.map asciiLower = cs.map asciiLower := by
  induction cs generalizing text with
  | nil =>
    rw [escape, likes_nil_iff, List.map_nil, List.map_eq_nil_iff]
  | cons c cs ih =>
    have hfirst : Likes (escape (c :: cs)) text ↔
        (Wild.letter c).Leaves (Likes (escape cs)) text := by
      rw [escape]
      split
      · exact likes_escaped_iff
      · rename_i hunmarked
        exact likes_plain_iff hunmarked
    rw [hfirst, List.map_cons, List.map_eq_cons_iff]
    constructor
    · rintro ⟨_, rest, rfl, ⟨a, rfl, same⟩, h⟩
      exact ⟨a, rest, rfl, same.symm, (ih rest).1 h⟩
    · rintro ⟨a, rest, rfl, same, h⟩
      exact ⟨[a], rest, rfl, ⟨a, rfl, same.symm⟩, (ih rest).2 h⟩

/-! ## Marks in lowercase texts -/

theorem isMark_of_lowerChar {c : Char} (h : IsMark (lowerChar c)) : lowerChar c = c := by
  rcases lowerChar_cases c with ⟨hsame, -⟩ | hbeyond
  · exact hsame
  · rcases h with h | h | h <;> rw [h] at hbeyond <;> exact absurd hbeyond (by decide)

theorem lowerChar_of_isMark {c : Char} (h : IsMark c) : lowerChar c = c := by
  rcases h with rfl | rfl | rfl <;> decide +kernel

/-- Between whatever neighbours, a mark stays as it is and nothing else becomes one. -/
theorem filter_isMark_lowerBetween (before : List Char) (c : Char) (after : List Char) :
    (lowerBetween before c after).filter (fun a => decide (IsMark a)) =
      [c].filter fun a => decide (IsMark a) := by
  unfold lowerBetween
  split
  · rename_i hsigma
    subst hsigma
    split <;> decide
  split
  · rename_i hdotted
    subst hdotted
    decide
  by_cases hmark : IsMark c
  · rw [lowerChar_of_isMark hmark]
  · have hlower : ¬ IsMark (lowerChar c) := by
      intro h
      rw [isMark_of_lowerChar h] at h
      exact hmark h
    rw [List.filter_cons_of_neg (by simpa using hlower),
      List.filter_cons_of_neg (by simpa using hmark)]

/-- Lowercasing keeps the marks of a text and adds none, by induction on what is left of it. -/
theorem filter_isMark_lowerFrom (before cs : List Char) :
    (lowerFrom before cs).filter (fun a => decide (IsMark a)) =
      cs.filter fun a => decide (IsMark a) := by
  induction cs generalizing before with
  | nil => rfl
  | cons c rest ih =>
    rw [lowerFrom_cons, List.filter_append, filter_isMark_lowerBetween, ih, ← List.filter_append,
      List.singleton_append]

/-- The marks of a text, in their order. -/
def marks (s : String) : List Char := s.toList.filter fun a => decide (IsMark a)

theorem marks_lowercase (s : String) : marks (lowercase s) = marks s := by
  rw [marks, lowercase, String.toList_ofList]
  exact filter_isMark_lowerFrom [] s.toList

end Text

namespace Search

open Text

/-- The pattern of a text is its escaped lowercase form between two percent signs. It covers another
lowercase text exactly if the one occurs in the other: this is what the matcher says, and what the
rules of patterns say. The escaped part covers nothing but the lowercase form itself, so the marks
of the text are found as marks. -/
theorem patternOf_matches_literally (s t : String) (hs : Text.NulFree s.toList)
    (ht : Text.NulFree t.toList) :
    let literal := escape (lowercase t).toList
    let pattern := '%' :: (literal ++ ['%'])
    (patternOf t).toList = pattern ∧
      (like pattern (lowercase s).toList = true ↔ Likes pattern (lowercase s).toList) ∧
      (Likes pattern (lowercase s).toList ↔ (lowercase t).toList <:+: (lowercase s).toList) ∧
      (∀ part, part <:+: (lowercase s).toList →
        (Likes literal part ↔ part = (lowercase t).toList)) ∧
      (Likes pattern (lowercase s).toList → marks t <:+: marks s) := by
  have hlower : ∀ u : String, (lowercase u).toList = lowerList u.toList :=
    fun _ => String.toList_ofList
  have hdecides := like_iff_likes (nulFree_containing (nulFree_lowerList ht))
    (nulFree_lowerList hs)
  have hoccurs : Likes (containing (lowerList t.toList)) (lowerList s.toList) ↔
      lowerList t.toList <:+: lowerList s.toList :=
    hdecides.symm.trans (like_containing_lowerList_iff ht hs)
  intro literal pattern
  have hpattern : pattern = containing (lowerList t.toList) := by
    rw [← hlower]
    rfl
  rw [hpattern, hlower, hlower]
  refine ⟨String.toList_ofList, hdecides, hoccurs, ?_, ?_⟩
  · intro part hpart
    -- in a lowercase text the case of letters makes no difference
    have hsame : ∀ c ∈ part, asciiLower c = id c :=
      fun c hc => (isLowered_of_mem_lowerFrom hs [] c (hpart.subset hc)).1
    rw [show literal = escape (lowerList t.toList) from congrArg escape (hlower t),
      likes_escape_iff, map_asciiLower_lowerList ht, List.map_congr_left hsame, List.map_id]
  · intro h
    have hmarks := (hoccurs.1 h).filter fun c => decide (IsMark c)
    rw [← hlower, ← hlower] at hmarks
    rw [← marks_lowercase t, ← marks_lowercase s]
    exact hmarks

/-- A percent sign and an underscore are found where they stand, and stand for nothing else. -/
theorem patternOf_matches_literally_sample :
    like (patternOf "0%_O").toList (lowercase "50%_OFF").toList = true ∧
      like (patternOf "0%_O").toList (lowercase "500 OFF").toList = false := by
  obtain ⟨hpattern, hdecides, hoccurs, -⟩ :=
    patternOf_matches_literally "50%_OFF" "0%_O" (by decide) (by decide)
  obtain ⟨-, hdecides', -, -, hmarks⟩ := patternOf_matches_literally "500 OFF" "0%_O" (by decide)
    (by decide)
  rw [hpattern]
  constructor
  · rw [hdecides, hoccurs]
    decide +kernel
  · rw [← Bool.not_eq_true, hdecides']
    intro h
    exact absurd (hmarks h) (by decide)

end Search

end JobBoard
