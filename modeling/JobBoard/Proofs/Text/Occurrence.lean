import JobBoard.Proofs.Text.Lowercase

/-!
# Lowercasing a part of a text

Only a capital sigma looks at its neighbours when it is lowered. A part of a text therefore keeps
its own lowercase form inside the lowercase text, provided each of its sigmas ends a word in the
part exactly if it does so in the text (`lowerList_infix`).
-/

set_option autoImplicit false

namespace JobBoard.Text

/-- Whether a word ends between two texts; the one before is given last character first. -/
def endsWord (before after : List Char) : Bool := casedNext before && !casedNext after

/-- The lowercase form of one character between its neighbours. -/
def lowerBetween (before : List Char) (c : Char) (after : List Char) : List Char :=
  if c = 'Σ' then
    if endsWord before after then ['ς'] else ['σ']
  else if c = 'İ' then ['i', '\u0307']
  else [lowerChar c]

theorem lowerFrom_cons (before : List Char) (c : Char) (rest : List Char) :
    lowerFrom before (c :: rest) = lowerBetween before c rest ++ lowerFrom (c :: before) rest := rfl

/-- The lowercase form of a part of a text, given what stands before and after it. -/
def lowerWithin (before : List Char) : List Char → List Char → List Char
  | [], _ => []
  | c :: rest, after =>
    lowerBetween before c (rest ++ after) ++ lowerWithin (c :: before) rest after

/-- A text is lowered part by part, by induction on the first part. -/
theorem lowerFrom_append (before part after : List Char) :
    lowerFrom before (part ++ after) =
      lowerWithin before part after ++ lowerFrom (part.reverse ++ before) after := by
  induction part generalizing before with
  | nil => rfl
  | cons c rest ih =>
    rw [List.cons_append, lowerFrom_cons, ih, lowerWithin, List.append_assoc, List.reverse_cons,
      List.append_assoc]
    rfl

theorem lowerWithin_nil (before part : List Char) :
    lowerWithin before part [] = lowerFrom before part := by
  have happend := lowerFrom_append before part []
  rw [List.append_nil] at happend
  rw [happend]
  exact (List.append_nil _).symm

/-- Each sigma of a part ends a word in the part exactly if it does so between two texts. -/
def SigmasAgree (front part back : List Char) : Prop :=
  ∀ l r, part = l ++ 'Σ' :: r →
    endsWord (l.reverse ++ front.reverse) (r ++ back) = endsWord l.reverse r

/-- A part is lowered the same way in two surroundings where its sigmas do the same. -/
theorem lowerWithin_congr {part : List Char} {before before' after after' : List Char}
    (h : ∀ l r, part = l ++ 'Σ' :: r →
      endsWord (l.reverse ++ before) (r ++ after) = endsWord (l.reverse ++ before') (r ++ after')) :
    lowerWithin before part after = lowerWithin before' part after' := by
  induction part generalizing before before' with
  | nil => rfl
  | cons c rest ih =>
    -- of all letters only a sigma looks at its surroundings
    have hfirst : lowerBetween before c (rest ++ after) =
        lowerBetween before' c (rest ++ after') := by
      unfold lowerBetween
      split
      · rename_i hsigma
        subst hsigma
        have hends := h [] rest rfl
        rw [List.reverse_nil, List.nil_append, List.nil_append] at hends
        rw [hends]
      · rfl
    have hrest : lowerWithin (c :: before) rest after = lowerWithin (c :: before') rest after' := by
      apply ih
      intro l r hpart
      -- a sigma of the rest is one of the part, with one more letter before it
      have hends := h (c :: l) r (congrArg (c :: ·) hpart)
      simpa using hends
    rw [lowerWithin, lowerWithin, hfirst, hrest]

/-- The lowercase form of a part whose sigmas agree occurs in that of the text. -/
theorem lowerList_infix {front part back : List Char} (h : SigmasAgree front part back) :
    lowerList part <:+: lowerList (front ++ part ++ back) := by
  have hpart : lowerWithin front.reverse part back = lowerList part := by
    unfold lowerList
    rw [← lowerWithin_nil]
    apply lowerWithin_congr
    intro l r hsplit
    rw [List.append_nil, List.append_nil]
    exact h l r hsplit
  refine ⟨lowerWithin [] front (part ++ back), lowerFrom (part.reverse ++ front.reverse) back, ?_⟩
  unfold lowerList
  rw [List.append_assoc front part back, lowerFrom_append [] front (part ++ back), List.append_nil,
    lowerFrom_append front.reverse part back, hpart, lowerList, List.append_assoc]

/-! ## Where sigmas agree -/

theorem sigmasAgree_of_not_mem {part : List Char} (h : 'Σ' ∉ part) (front back : List Char) :
    SigmasAgree front part back := by
  rintro l r rfl
  exact absurd (List.mem_append_right l List.mem_cons_self) h

/-- Without a cased letter next to it on either side, a part is lowered as if it stood alone. -/
theorem sigmasAgree_of_apart {front back : List Char} (hfront : casedNext front.reverse = false)
    (hback : casedNext back = false) (part : List Char) : SigmasAgree front part back := by
  have halone : ∀ cs more, casedNext more = false → casedNext (cs ++ more) = casedNext cs := by
    intro cs more hmore
    unfold casedNext at hmore ⊢
    rw [List.dropWhile_append]
    cases hcs : cs.dropWhile isCaseIgnorable with
    | nil => exact hmore
    | cons c rest => rfl
  intro l r _
  unfold endsWord
  rw [halone l.reverse front.reverse hfront, halone r back hback]

end JobBoard.Text
