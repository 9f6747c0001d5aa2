import JobBoard.Text.Blank
import Mathlib.Data.List.Chain
import Mathlib.Data.List.DropRight

/-!
# Words

The words of a text are what stands between its blanks. A text whose ends are trimmed and whose runs
of blanks are collapsed is made of the same words, with single spaces between them
(`collapse_trimList`). Words that are joined this way are a text as `IsNormal` describes it, unless
there are none (`isNormal_joinWords`), and a text of that description stays as it is
(`IsNormal.collapse_trimList_eq_self`).
-/

set_option autoImplicit false

namespace JobBoard.Text

/-- A text without blanks that is not empty. -/
structure IsWord (w : List Char) : Prop where
  nonempty : w ≠ []
  solid : ∀ c ∈ w, isBlank c = false

/-- The words of a text, in their order. -/
def words (cs : List Char) : List (List Char) := (cs.splitOnP isBlank).filter fun w => !w.isEmpty

/-- Words with single spaces between them. -/
def joinWords (ws : List (List Char)) : List Char := [' '].intercalate ws

/-- A text of words with single spaces between them. -/
structure IsNormal (cs : List Char) : Prop where
  nonempty : cs ≠ []
  head : ∀ c ∈ cs.head?, isBlank c = false
  last : ∀ c ∈ cs.getLast?, isBlank c = false
  space : ∀ c ∈ cs, isBlank c = true → c = ' '
  single : cs.IsChain fun c d => isBlank c = false ∨ isBlank d = false

theorem isWord_singleton {c : Char} (hc : isBlank c = false) : IsWord [c] where
  nonempty := List.cons_ne_nil c []
  solid := by simpa using hc

/-! ## The words of a text -/

theorem words_append_blank {c : Char} (hc : isBlank c = true) (cs ds : List Char) :
    words (cs ++ c :: ds) = words cs ++ words ds := by
  rw [words, List.splitOnP_append_cons cs ds hc, List.filter_append]
  rfl

theorem words_cons_blank {c : Char} (hc : isBlank c = true) (cs : List Char) :
    words (c :: cs) = words cs :=
  words_append_blank hc [] cs

theorem IsWord.words_eq {w : List Char} (hw : IsWord w) : words w = [w] := by
  rw [words, List.splitOnP_eq_singleton hw.solid]
  cases w with
  | nil => exact absurd rfl hw.nonempty
  | cons c cs => rfl

/-- A letter before a blank is the end of a word. -/
theorem words_cons_cons_blank {c d : Char} (hc : isBlank c = false) (hd : isBlank d = true)
    (cs : List Char) : words (c :: d :: cs) = [c] :: words (d :: cs) := by
  rw [← List.singleton_append, words_append_blank hd, words_cons_blank hd,
    (isWord_singleton hc).words_eq]
  rfl

/-- A letter before a letter belongs to the same word. -/
theorem words_cons_cons {c d : Char} (hc : isBlank c = false) (hd : isBlank d = false)
    (cs : List Char) :
    ∃ w ws, words (d :: cs) = w :: ws ∧ words (c :: d :: cs) = (c :: w) :: ws := by
  obtain ⟨w, ws, hsplit⟩ := List.exists_cons_of_ne_nil (List.splitOnP_ne_nil isBlank cs)
  refine ⟨d :: w, ws.filter fun w => !w.isEmpty, ?_, ?_⟩
  · simp [words, List.splitOnP_cons_eq_if_modifyHead, hd, hsplit]
  · simp [words, List.splitOnP_cons_eq_if_modifyHead, hc, hd, hsplit]

/-- Only blanks have no words, by induction on the text: a letter is in a word. -/
theorem words_eq_nil_iff (cs : List Char) : words cs = [] ↔ ∀ c ∈ cs, isBlank c = true := by
  induction cs with
  | nil => simp [words]
  | cons c cs ih =>
    cases hc : isBlank c with
    | true => simp [words_cons_blank hc, ih, hc]
    | false =>
      have hne : words (c :: cs) ≠ [] := by
        cases cs with
        | nil => simp [(isWord_singleton hc).words_eq]
        | cons d ds =>
          cases hd : isBlank d with
          | true => simp [words_cons_cons_blank hc hd]
          | false =>
            obtain ⟨w, ws, -, h⟩ := words_cons_cons hc hd ds
            simp [h]
      simp [hne, hc]

theorem isWord_of_mem_words {w cs : List Char} (h : w ∈ words cs) : IsWord w := by
  induction cs generalizing w with
  | nil => simp [words] at h
  | cons c cs ih =>
    cases hc : isBlank c with
    | true => exact ih (words_cons_blank hc cs ▸ h)
    | false =>
      cases cs with
      | nil =>
        rw [(isWord_singleton hc).words_eq, List.mem_singleton] at h
        exact h ▸ isWord_singleton hc
      | cons d ds =>
        cases hd : isBlank d with
        | true =>
          rw [words_cons_cons_blank hc hd, List.mem_cons] at h
          rcases h with rfl | h
          · exact isWord_singleton hc
          · exact ih h
        | false =>
          obtain ⟨v, vs, hv, hcv⟩ := words_cons_cons hc hd ds
          rw [hv] at ih
          rw [hcv, List.mem_cons] at h
          rcases h with rfl | h
          · have hsolid := (ih List.mem_cons_self).solid
            exact ⟨List.cons_ne_nil c v, List.forall_mem_cons.2 ⟨hc, hsolid⟩⟩
          · exact ih (List.mem_cons_of_mem v h)

theorem words_dropWhile (cs : List Char) : words (cs.dropWhile isBlank) = words cs := by
  induction cs with
  | nil => rfl
  | cons c cs ih =>
    rw [List.dropWhile_cons]
    split
    · rename_i hc
      rw [ih, words_cons_blank hc]
    · rfl

theorem words_append_blanks {blanks : List Char} (h : ∀ c ∈ blanks, isBlank c = true)
    (cs : List Char) : words (cs ++ blanks) = words cs := by
  cases blanks with
  | nil => rw [List.append_nil]
  | cons c rest =>
    rw [List.forall_mem_cons] at h
    rw [words_append_blank h.1, (words_eq_nil_iff rest).2 h.2, List.append_nil]

theorem words_rdropWhile (cs : List Char) : words (cs.rdropWhile isBlank) = words cs := by
  have hsplit : cs = cs.rdropWhile isBlank ++ cs.rtakeWhile isBlank := by
    rw [List.rdropWhile, List.rtakeWhile, ← List.reverse_append, List.takeWhile_append_dropWhile,
      List.reverse_reverse]
  conv_rhs => rw [hsplit]
  exact (words_append_blanks (fun c hc => List.mem_rtakeWhile_imp hc) _).symm

theorem words_trimList (cs : List Char) : words (trimList cs) = words cs :=
  (words_rdropWhile _).trans (words_dropWhile cs)

/-! ## Joined words -/

theorem joinWords_cons {w : List Char} {ws : List (List Char)} (h : ws ≠ []) :
    joinWords (w :: ws) = w ++ ' ' :: joinWords ws := by
  cases ws with
  | nil => exact absurd rfl h
  | cons v vs =>
    rw [joinWords, List.intercalate_cons_cons, List.append_assoc]
    rfl

theorem joinWords_cons_cons (c : Char) (w : List Char) (ws : List (List Char)) :
    joinWords ((c :: w) :: ws) = c :: joinWords (w :: ws) := by
  cases ws with
  | nil => simp [joinWords]
  | cons v vs =>
    rw [joinWords_cons (List.cons_ne_nil v vs), joinWords_cons (List.cons_ne_nil v vs),
      List.cons_append]

theorem IsWord.isNormal {w : List Char} (hw : IsWord w) : IsNormal w where
  nonempty := hw.nonempty
  head c hc := hw.solid c (List.mem_of_mem_head? hc)
  last c hc := hw.solid c (List.mem_of_getLast? hc)
  space c hc hblank := by
    rw [hw.solid c hc] at hblank
    exact nomatch hblank
  single := (List.pairwise_of_forall_mem_list fun c hc _ _ => .inl (hw.solid c hc)).isChain

theorem IsNormal.append {cs ds : List Char} (hcs : IsNormal cs) (hds : IsNormal ds) :
    IsNormal (cs ++ ' ' :: ds) := by
  obtain ⟨d, rest, rfl⟩ := List.exists_cons_of_ne_nil hds.nonempty
  refine ⟨by simp, ?_, ?_, ?_, ?_⟩
  · rw [List.head?_append_of_ne_nil cs hcs.nonempty]
    exact hcs.head
  · rw [List.getLast?_append_cons, List.getLast?_cons_cons]
    exact hds.last
  · intro c hc
    rcases List.mem_append.1 hc with hc | hc
    · exact hcs.space c hc
    · rcases List.mem_cons.1 hc with rfl | hc
      · exact fun _ => rfl
      · exact hds.space c hc
  · rw [List.isChain_append, List.isChain_cons_cons]
    exact ⟨hcs.single, ⟨.inr (hds.head d rfl), hds.single⟩, fun c hc _ _ => .inl (hcs.last c hc)⟩

theorem isNormal_joinWords {ws : List (List Char)} (hne : ws ≠ []) (h : ∀ w ∈ ws, IsWord w) :
    IsNormal (joinWords ws) := by
  induction ws with
  | nil => exact absurd rfl hne
  | cons w ws ih =>
    rw [List.forall_mem_cons] at h
    cases ws with
    | nil =>
      rw [joinWords, List.intercalate_singleton]
      exact h.1.isNormal
    | cons v vs =>
      rw [joinWords_cons (List.cons_ne_nil v vs)]
      exact h.1.isNormal.append (ih (List.cons_ne_nil v vs) h.2)

/-! ## Collapsed texts -/

/-- In a text that does not end with a blank the runs of blanks separate the words, so writing a
space for each of them joins the words. A run at the beginning is written unless it is under way. -/
theorem collapseFrom_eq_joinWords {cs : List Char} (h : ∀ c ∈ cs.getLast?, isBlank c = false) :
    collapseFrom true cs = joinWords (words cs) ∧
      collapseFrom false cs =
        if cs.head?.any isBlank then ' ' :: joinWords (words cs) else joinWords (words cs) := by
  induction cs with
  | nil => simp [collapseFrom, words, joinWords]
  | cons c cs ih =>
    have hrest : ∀ c ∈ cs.getLast?, isBlank c = false := by
      cases cs with
      | nil => simp
      | cons d ds => rwa [List.getLast?_cons_cons] at h
    obtain ⟨hrun, hfirst⟩ := ih hrest
    cases hc : isBlank c with
    | true => simp [collapseFrom, hc, words_cons_blank hc, hrun]
    | false =>
      have hletter : c :: collapseFrom false cs = joinWords (words (c :: cs)) := by
        rw [hfirst]
        cases cs with
        | nil =>
          rw [(isWord_singleton hc).words_eq]
          rfl
        | cons d ds =>
          cases hd : isBlank d with
          | true =>
            -- the text does not end with this blank, so there is a word after it
            have hmore : words (d :: ds) ≠ [] := by
              intro hnil
              have hne := List.cons_ne_nil d ds
              have hblank := (words_eq_nil_iff _).1 hnil _ (List.getLast_mem hne)
              rw [hrest _ (List.getLast?_eq_some_getLast hne)] at hblank
              exact nomatch hblank
            rw [words_cons_cons_blank hc hd, joinWords_cons hmore]
            simp [hd]
          | false =>
            obtain ⟨w, ws, hw, hcw⟩ := words_cons_cons hc hd ds
            rw [hw, hcw, joinWords_cons_cons]
            simp [hd]
      simp [collapseFrom, hc, hletter]

/-! ## Trimmed texts -/

theorem head?_trimList {cs : List Char} {c : Char} (h : (trimList cs).head? = some c) :
    isBlank c = false := by
  have hprefix : trimList cs <+: cs.dropWhile isBlank := List.rdropWhile_prefix _ _
  have hhead : (cs.dropWhile isBlank).head? = some c := by
    obtain ⟨tail, htail⟩ := hprefix
    rw [← htail, List.head?_append, h]
    rfl
  have hnot := List.head?_dropWhile_not isBlank cs
  rw [hhead] at hnot
  simpa using hnot

theorem getLast?_trimList {cs : List Char} {c : Char} (h : (trimList cs).getLast? = some c) :
    isBlank c = false := by
  obtain ⟨hne, rfl⟩ := List.mem_getLast?_eq_getLast h
  exact Bool.eq_false_iff.2 (List.rdropWhile_last_not isBlank (cs.dropWhile isBlank) hne)

/-- A text is another one without the blanks at its two ends. -/
structure IsTrimmed (core whole : List Char) : Prop where
  blanks : ∃ before after, whole = before ++ core ++ after ∧
    (∀ c ∈ before, isBlank c = true) ∧ ∀ c ∈ after, isBlank c = true
  head : ∀ c ∈ core.head?, isBlank c = false
  last : ∀ c ∈ core.getLast?, isBlank c = false

theorem isTrimmed_trimList (cs : List Char) : IsTrimmed (trimList cs) cs where
  blanks := by
    have hback : trimList cs ++ (cs.dropWhile isBlank).rtakeWhile isBlank = cs.dropWhile isBlank :=
      List.rdropWhile_append_rtakeWhile
    refine ⟨cs.takeWhile isBlank, (cs.dropWhile isBlank).rtakeWhile isBlank, ?_, ?_, ?_⟩
    · rw [List.append_assoc, hback, List.takeWhile_append_dropWhile]
    · intro c hc
      exact List.mem_takeWhile_imp hc
    · intro c hc
      exact List.mem_rtakeWhile_imp hc
  head _ hc := head?_trimList hc
  last _ hc := getLast?_trimList hc

theorem dropWhile_blanks_append {before core : List Char} (hbefore : ∀ c ∈ before, isBlank c = true)
    (hcore : ∀ c ∈ core.head?, isBlank c = false) : (before ++ core).dropWhile isBlank = core := by
  rw [List.dropWhile_append_of_pos hbefore]
  cases core with
  | nil => rfl
  | cons c rest => rw [List.dropWhile_cons_of_neg (Bool.eq_false_iff.mp (hcore c rfl))]

theorem IsTrimmed.trimList_eq {core whole : List Char} (h : IsTrimmed core whole) :
    trimList whole = core := by
  obtain ⟨before, after, rfl, hbefore, hafter⟩ := h.blanks
  rw [trimList]
  cases core with
  | nil =>
    have hblank : ∀ c ∈ before ++ after, isBlank c = true :=
      fun c hc => (List.mem_append.mp hc).elim (hbefore c) (hafter c)
    rw [List.append_nil, ← List.append_nil (before ++ after),
      dropWhile_blanks_append hblank (by simp)]
    rfl
  | cons c rest =>
    have hlast : ∀ d ∈ (c :: rest).reverse.head?, isBlank d = false := by
      rw [List.head?_reverse]
      exact h.last
    have hafter' : ∀ d ∈ after.reverse, isBlank d = true :=
      fun d hd => hafter d (List.mem_reverse.mp hd)
    have hfront : (before ++ (c :: rest ++ after)).dropWhile isBlank = c :: rest ++ after :=
      dropWhile_blanks_append hbefore h.head
    rw [List.append_assoc, hfront, List.reverse_append, dropWhile_blanks_append hafter' hlast,
      List.reverse_reverse]

/-- Only blanks are trimmed away altogether. -/
theorem trim_eq_empty_iff {s : String} :
    trim s = "" ↔ ∀ c ∈ s.toList, isBlank c = true := by
  rw [trim, String.ofList_eq_empty_iff]
  constructor
  · intro hnil
    obtain ⟨before, after, hs, hbefore, hafter⟩ :=
      (isTrimmed_trimList s.toList).blanks
    rw [hnil, List.append_nil] at hs
    intro c hc
    rw [hs] at hc
    exact (List.mem_append.mp hc).elim (hbefore c) (hafter c)
  · intro hblank
    exact IsTrimmed.trimList_eq ⟨⟨s.toList, [], by simp, hblank, nofun⟩, nofun, nofun⟩

/-! ## Texts trimmed and collapsed -/

/-- What is left of a text is its words, with single spaces between them. -/
theorem collapse_trimList (cs : List Char) : collapse (trimList cs) = joinWords (words cs) := by
  have hlast : ∀ c ∈ (trimList cs).getLast?, isBlank c = false := fun c hc => getLast?_trimList hc
  have hfirst : ¬(trimList cs).head?.any isBlank = true := by
    rw [Option.any_eq_true]
    rintro ⟨c, hc, hblank⟩
    rw [head?_trimList hc] at hblank
    exact nomatch hblank
  rw [collapse, (collapseFrom_eq_joinWords hlast).2, if_neg hfirst, words_trimList]

/-- Single spaces are written as they are. -/
theorem collapseFrom_eq_self {inRun : Bool} {cs : List Char}
    (hspace : ∀ c ∈ cs, isBlank c = true → c = ' ')
    (hsingle : cs.IsChain fun c d => isBlank c = false ∨ isBlank d = false)
    (hrun : inRun = true → ∀ c ∈ cs.head?, isBlank c = false) : collapseFrom inRun cs = cs := by
  induction cs generalizing inRun with
  | nil => rfl
  | cons c cs ih =>
    rw [List.forall_mem_cons] at hspace
    rw [List.isChain_cons] at hsingle
    rw [collapseFrom]
    split
    · rename_i hc
      have hstart : inRun = false := by
        rw [Bool.eq_false_iff]
        intro hin
        rw [hrun hin c rfl] at hc
        exact nomatch hc
      have hnext : ∀ d ∈ cs.head?, isBlank d = false := by
        intro d hd
        exact (hsingle.1 d hd).resolve_left (by simp [hc])
      rw [hstart, if_neg Bool.false_ne_true, ih hspace.2 hsingle.2 fun _ => hnext, hspace.1 hc]
    · have hrest : collapseFrom false cs = cs := ih hspace.2 hsingle.2 fun h => nomatch h
      rw [hrest]

theorem IsNormal.collapse_trimList_eq_self {cs : List Char} (h : IsNormal cs) :
    collapse (trimList cs) = cs := by
  have hfront : cs.dropWhile isBlank = cs := by
    rw [List.dropWhile_eq_self_iff]
    intro hpos
    have hletter := h.head _ (List.head?_eq_some_head (List.length_pos_iff.1 hpos))
    simpa [List.head_eq_getElem] using hletter
  have hend : cs.rdropWhile isBlank = cs := by
    rw [List.rdropWhile_eq_self_iff]
    intro hne
    simp [h.last _ (List.getLast?_eq_some_getLast hne)]
  have htrim : trimList cs = cs := by
    show (cs.dropWhile isBlank).rdropWhile isBlank = cs
    rw [hfront, hend]
  rw [htrim]
  exact collapseFrom_eq_self h.space h.single fun hrun => nomatch hrun

end JobBoard.Text
