import JobBoard.Proofs.Search.Placeholders

/-!
# The text of a statement tells the shape of the criteria, and nothing else

Criteria have a shape: whether there is a text to look for, whether there is a least salary, and how
long the three lists are (`Criteria.shape`). The statement for criteria is a function of their
shape (`statement_compose`), and different shapes have different texts, because the text of a
condition, together with what separates it from the next, is never the beginning of another
(`render_readable`). The main theorem is `render_eq_iff_shape_eq`.
-/

set_option autoImplicit false

namespace JobBoard.Search

/-! ## Shapes -/

/-- What criteria have besides their values. -/
structure Shape where
  text : Bool
  categories : Nat
  floor : Bool
  employments : Nat
  experiences : Nat
  deriving DecidableEq, Repr

/-- The shape of criteria. A blank text is none, and a list that is absent has no length. -/
def Criteria.shape (c : Criteria) : Shape where
  text := c.freeText.any fun s => Text.trim s != ""
  categories := (c.categoryIds.getD []).length
  floor := c.minValue.isSome
  employments := (c.employmentTypes.getD []).length
  experiences := (c.experienceLevels.getD []).length

namespace Condition

/-- The same condition from another placeholder on. -/
def moved (first : Nat) : Condition → Condition
  | .anyLike _ => .anyLike first
  | .among column _ count => .among column first count
  | .salaryAtLeast _ => .salaryAtLeast first

/-- How many placeholders a condition has. -/
def width : Condition → Nat
  | .anyLike _ => 3
  | .among _ _ count => count
  | .salaryAtLeast _ => 1

end Condition

/-- A list of a length as a condition, if there is something in it. -/
def listForm (column : ListColumn) (count : Nat) : List Condition :=
  if count = 0 then [] else [.among column 1 count]

/-- The conditions of a shape, each as if it stood first. -/
def Shape.forms (s : Shape) : List Condition :=
  (if s.text then [.anyLike 1] else []) ++ listForm .specialization s.categories ++
    (if s.floor then [.salaryAtLeast 1] else []) ++ listForm .employment s.employments ++
    listForm .experience s.experiences

/-- Conditions placed one after the other, the first placeholder being `next`. -/
def placeForms (next : Nat) : List Condition → List Condition
  | [] => []
  | c :: rest => c.moved next :: placeForms (next + c.width) rest

/-- The first placeholder after conditions that are placed from `next` on. -/
def nextSlot (next : Nat) : List Condition → Nat
  | [] => next
  | c :: rest => nextSlot (next + c.width) rest

/-- A filter is placed like the condition that it makes when it stands first. -/
def Filter.Regular (f : Filter) : Prop :=
  (∀ first, f.condition first = (f.condition 1).moved first) ∧
    f.arguments.length = (f.condition 1).width

theorem placeFilters_eq {fs : List Filter} (h : ∀ f ∈ fs, f.Regular) (next : Nat) :
    placeFilters next fs = placeForms next (fs.map fun f => f.condition 1) := by
  induction fs generalizing next with
  | nil => rfl
  | cons f rest ih =>
    obtain ⟨hmoved, hwidth⟩ := h f List.mem_cons_self
    rw [placeFilters, List.map_cons, placeForms, ← hmoved, ← hwidth,
      ih fun f hf => h f (List.mem_cons_of_mem _ hf)]

theorem nextSlot_eq {fs : List Filter} (h : ∀ f ∈ fs, f.Regular) (next : Nat) :
    nextSlot next (fs.map fun f => f.condition 1) =
      next + (fs.flatMap Filter.arguments).length := by
  induction fs generalizing next with
  | nil => rfl
  | cons f rest ih =>
    obtain ⟨-, hwidth⟩ := h f List.mem_cons_self
    rw [List.map_cons, nextSlot, ← hwidth, ih fun f hf => h f (List.mem_cons_of_mem _ hf),
      List.flatMap_cons, List.length_append, Nat.add_assoc]

theorem map_moved_placeForms {forms : List Condition} (h : ∀ c ∈ forms, c.moved 1 = c)
    (next : Nat) : (placeForms next forms).map (Condition.moved 1) = forms := by
  induction forms generalizing next with
  | nil => rfl
  | cons c rest ih =>
    have hback : (c.moved next).moved 1 = c := by
      rw [← h c List.mem_cons_self]
      cases c <;> rfl
    rw [placeForms, List.map_cons, hback, ih fun c hc => h c (List.mem_cons_of_mem _ hc)]

theorem regular_of_mem_filters {c : Criteria} {f : Filter} (hf : f ∈ c.filters) : f.Regular := by
  rw [filters_eq_filterMap, List.mem_filterMap] at hf
  obtain ⟨kind, -, hkind⟩ := hf
  cases kind <;> obtain ⟨value, -, rfl⟩ := Option.map_eq_some_iff.1 hkind <;>
    exact ⟨fun first => rfl, rfl⟩

theorem map_condition_textFilter (c : Criteria) :
    ((c.textFilter.map textFilterOf).toList.map fun f => f.condition 1) =
      if c.shape.text then [.anyLike 1] else [] := by
  rw [Criteria.textFilter, Criteria.shape]
  cases c.freeText with
  | none => rfl
  | some text =>
    by_cases hblank : Text.trim text = ""
    · simp [hblank]
    · simp [hblank, textFilterOf]

theorem map_condition_listFilter {α : Type} (column : ListColumn) (o : Option (List α))
    (argument : α → Argument) :
    ((someList o).map fun l => listFilterOf column (l.map argument)).toList.map
      (fun f => f.condition 1) = listForm column (o.getD []).length := by
  match o with
  | none => rfl
  | some [] => rfl
  | some (a :: rest) => simp [someList, listForm, listFilterOf]

theorem map_condition_salaryFilter (c : Criteria) :
    ((c.minValue.map salaryFilterOf).toList.map fun f => f.condition 1) =
      if c.shape.floor then [.salaryAtLeast 1] else [] := by
  rw [Criteria.shape]
  cases c.minValue <;> rfl

/-- The filters of criteria have the forms of their shape. -/
theorem map_condition_filters (c : Criteria) :
    (c.filters.map fun f => f.condition 1) = c.shape.forms := by
  rw [Criteria.filters, List.map_append, List.map_append, List.map_append, List.map_append,
    map_condition_textFilter, map_condition_salaryFilter, Shape.forms]
  congr 1
  · congr 1
    · congr 1
      · congr 1
        exact map_condition_listFilter .specialization c.categoryIds .integer
    · exact map_condition_listFilter .employment c.employmentTypes fun e => .text e.text
  · exact map_condition_listFilter .experience c.experienceLevels fun e => .text e.text

/-- The statement of a shape. -/
def Shape.statement (s : Shape) : Statement where
  conditions := placeForms 1 s.forms
  limitSlot := nextSlot 1 s.forms
  offsetSlot := nextSlot 1 s.forms + 1

/-- The statement for criteria is that of their shape. -/
theorem statement_compose (c : Criteria) : (compose c).statement = c.shape.statement := by
  have hregular : ∀ f ∈ c.filters, f.Regular := fun f => regular_of_mem_filters
  rw [Shape.statement, ← map_condition_filters, ← placeFilters_eq hregular, nextSlot_eq hregular,
    Nat.add_comm 1]
  rfl

/-! ## The shape behind the forms -/

theorem mem_listForm {column : ListColumn} {count : Nat} {c : Condition} :
    c ∈ listForm column count ↔ 0 < count ∧ c = .among column 1 count := by
  rw [listForm]
  split
  · rename_i hzero
    simp [hzero]
  · rename_i hsome
    simp [Nat.pos_of_ne_zero hsome]

/-- How many values there are for a column. -/
def Shape.count (s : Shape) : ListColumn → Nat
  | .specialization => s.categories
  | .employment => s.employments
  | .experience => s.experiences

theorem mem_forms {s : Shape} {c : Condition} :
    c ∈ s.forms ↔ (s.text = true ∧ c = .anyLike 1) ∨ (s.floor = true ∧ c = .salaryAtLeast 1) ∨
      ∃ column, 0 < s.count column ∧ c = .among column 1 (s.count column) := by
  have hcolumns : (∃ column, 0 < s.count column ∧ c = .among column 1 (s.count column)) ↔
      c ∈ listForm .specialization s.categories ∨ c ∈ listForm .employment s.employments ∨
        c ∈ listForm .experience s.experiences := by
    simp only [mem_listForm]
    constructor
    · rintro ⟨column, hcolumn⟩
      cases column with
      | specialization => exact .inl hcolumn
      | employment => exact .inr (.inl hcolumn)
      | experience => exact .inr (.inr hcolumn)
    · rintro (h | h | h)
      · exact ⟨.specialization, h⟩
      · exact ⟨.employment, h⟩
      · exact ⟨.experience, h⟩
  have hif : ∀ (b : Bool) (d : Condition),
      c ∈ (if b then [d] else []) ↔ b = true ∧ c = d := by
    intro b d
    cases b <;> simp
  rw [hcolumns, Shape.forms]
  simp only [List.mem_append, hif]
  tauto

theorem count_eq_of_forms_eq {s t : Shape} (h : s.forms = t.forms) (column : ListColumn) :
    s.count column = t.count column := by
  have hcount : ∀ (u : Shape) (n : Nat),
      .among column 1 n ∈ u.forms ↔ 0 < n ∧ n = u.count column := by
    intro u n
    rw [mem_forms]
    constructor
    · rintro (⟨-, h⟩ | ⟨-, h⟩ | ⟨column', hpos, h⟩)
      · exact nomatch h
      · exact nomatch h
      · obtain ⟨rfl, -, rfl⟩ := Condition.among.inj h
        exact ⟨hpos, rfl⟩
    · rintro ⟨hpos, rfl⟩
      exact .inr (.inr ⟨column, hpos, rfl⟩)
  have hboth : ∀ n, 0 < n → (n = s.count column ↔ n = t.count column) := by
    intro n hn
    have hs := hcount s n
    rw [h, hcount t n] at hs
    tauto
  by_cases hzero : s.count column = 0
  · by_contra hne
    have := hboth (t.count column) (by omega)
    omega
  · exact (hboth _ (by omega)).1 rfl

/-- Different shapes have different forms. -/
theorem shape_eq_of_forms_eq {s t : Shape} (h : s.forms = t.forms) : s = t := by
  have htext : s.text = t.text := by
    have hmem : ∀ u : Shape, .anyLike 1 ∈ u.forms ↔ u.text = true := by simp [mem_forms]
    rw [Bool.eq_iff_iff, ← hmem, ← hmem, h]
  have hfloor : s.floor = t.floor := by
    have hmem : ∀ u : Shape, .salaryAtLeast 1 ∈ u.forms ↔ u.floor = true := by simp [mem_forms]
    rw [Bool.eq_iff_iff, ← hmem, ← hmem, h]
  have hcount := count_eq_of_forms_eq h
  obtain ⟨text, categories, floor, employments, experiences⟩ := s
  obtain ⟨text', categories', floor', employments', experiences'⟩ := t
  obtain rfl : text = text' := htext
  obtain rfl : floor = floor' := hfloor
  obtain rfl : categories = categories' := hcount .specialization
  obtain rfl : employments = employments' := hcount .employment
  obtain rfl : experiences = experiences' := hcount .experience
  rfl

theorem moved_of_mem_forms {s : Shape} {c : Condition} (hc : c ∈ s.forms) : c.moved 1 = c := by
  rcases mem_forms.1 hc with ⟨-, rfl⟩ | ⟨-, rfl⟩ | ⟨column, -, rfl⟩ <;> rfl

/-! ## Reading texts back -/

theorem toDigits_cancel {n m : Nat} {X Y : List Char} (hX : Opens X) (hY : Opens Y)
    (h : Nat.toDigits 10 n ++ X = Nat.toDigits 10 m ++ Y) : n = m ∧ X = Y := by
  have hdigits : Nat.toDigits 10 n = Nat.toDigits 10 m := by
    rw [← takeWhile_isDigit_toDigits n, ← takeWhile_isDigit_append hX, h,
      takeWhile_isDigit_append hY, takeWhile_isDigit_toDigits]
  have hnm : n = m := by
    rw [← Nat.ofDigitChars_ten_toDigits (n := n), hdigits, Nat.ofDigitChars_ten_toDigits]
  rw [hdigits] at h
  exact ⟨hnm, List.append_cancel_left h⟩

/-- The texts for some values open, and each can be told from what comes after it. -/
structure Readable {α : Type} (valid : α → Prop) (text : α → List Char) : Prop where
  opens : ∀ a, Opens (text a)
  cancel : ∀ {a b : α} {X Y : List Char}, valid a → valid b → Opens X → Opens Y →
    text a ++ X = text b ++ Y → a = b ∧ X = Y

namespace Readable

variable {α : Type} {valid : α → Prop} {text : α → List Char}

theorem placeholder : Readable (fun _ => True) fun n => (placeholder n).toList where
  opens := opens_placeholder
  cancel := by
    intro n m X Y _ _ hX hY h
    rw [toList_placeholder, toList_placeholder] at h
    exact toDigits_cancel hX hY (List.cons.inj h).2

/-- What comes before every text does no harm. -/
theorem after (h : Readable valid text) {sep : List Char} (hsep : Opens sep) :
    Readable valid fun a => sep ++ text a where
  opens a := hsep.append _
  cancel ha hb hX hY heq := by
    rw [List.append_assoc, List.append_assoc] at heq
    exact h.cancel ha hb hX hY (List.append_cancel_left heq)

theorem opens_flatMap (h : Readable valid text) {X : List Char} (hX : Opens X) (l : List α) :
    Opens (l.flatMap text ++ X) := by
  cases l with
  | nil => exact hX
  | cons a rest =>
    rw [List.flatMap_cons, List.append_assoc]
    exact (h.opens a).append _

/-- Texts one after the other can be told from an end that none of them begins like. -/
theorem flatMap_cancel (h : Readable valid text) {X Y : List Char} (hX : Opens X) (hY : Opens Y)
    (hendX : ∀ a Z, text a ++ Z ≠ X) (hendY : ∀ a Z, text a ++ Z ≠ Y) {l m : List α}
    (hl : ∀ a ∈ l, valid a) (hm : ∀ a ∈ m, valid a)
    (heq : l.flatMap text ++ X = m.flatMap text ++ Y) : l = m ∧ X = Y := by
  induction l generalizing m with
  | nil =>
    cases m with
    | nil => exact ⟨rfl, heq⟩
    | cons b m =>
      rw [List.flatMap_cons, List.append_assoc] at heq
      exact absurd heq.symm (hendX b _)
  | cons a l ih =>
    cases m with
    | nil =>
      rw [List.flatMap_cons, List.append_assoc] at heq
      exact absurd heq (hendY a _)
    | cons b m =>
      rw [List.flatMap_cons, List.flatMap_cons, List.append_assoc, List.append_assoc] at heq
      obtain ⟨rfl, hrest⟩ := h.cancel (hl a List.mem_cons_self) (hm b List.mem_cons_self)
        (h.opens_flatMap hX l) (h.opens_flatMap hY m) heq
      obtain ⟨rfl, hend⟩ := ih (fun a ha => hl a (List.mem_cons_of_mem _ ha))
        (fun b hb => hm b (List.mem_cons_of_mem _ hb)) hrest
      exact ⟨rfl, hend⟩

end Readable

theorem toList_intercalate_cons (sep text : String) (rest : List String) :
    (sep.intercalate (text :: rest)).toList =
      text.toList ++ rest.flatMap fun t => sep.toList ++ t.toList := by
  induction rest generalizing text with
  | nil => simp
  | cons next rest ih =>
    rw [String.intercalate_cons_cons, String.toList_append, String.toList_append, ih,
      List.flatMap_cons, List.append_assoc, List.append_assoc]

/-! ## Conditions -/

/-- What the text of a condition of a kind begins with, up to its first placeholder. -/
def FilterKind.head : FilterKind → String
  | .text => "(fold_case(v.title) LIKE "
  | .specialization => "v.specialization_id IN ("
  | .salary => "v.salary_from >= "
  | .employment => "v.employment IN ("
  | .experience => "v.experience IN ("

theorem FilterKind.eq_of_head_prefix (k l : FilterKind)
    (h : k.head.toList <+: l.head.toList) : k = l := by
  revert h
  cases k <;> cases l <;> decide

theorem FilterKind.head_cancel {k l : FilterKind} {X Y : List Char}
    (h : k.head.toList ++ X = l.head.toList ++ Y) : k = l ∧ X = Y := by
  have hkl : k = l := by
    rcases List.prefix_or_prefix_of_prefix (List.prefix_append k.head.toList X)
      (h ▸ List.prefix_append l.head.toList Y) with hprefix | hprefix
    · exact FilterKind.eq_of_head_prefix k l hprefix
    · exact (FilterKind.eq_of_head_prefix l k hprefix).symm
  subst hkl
  exact ⟨rfl, List.append_cancel_left h⟩

/-- The kind of filter that looks a column up in a list. -/
def ListColumn.kind : ListColumn → FilterKind
  | .specialization => .specialization
  | .employment => .employment
  | .experience => .experience

theorem ListColumn.eq_of_kind {c d : ListColumn} (h : c.kind = d.kind) : c = d := by
  revert h
  cases c <;> cases d <;> decide

namespace Condition

/-- The kind of filter that a condition is. -/
def kind : Condition → FilterKind
  | .anyLike _ => .text
  | .among column _ _ => column.kind
  | .salaryAtLeast _ => .salary

/-- The first placeholder of a condition. -/
def first : Condition → Nat
  | .anyLike first => first
  | .among _ first _ => first
  | .salaryAtLeast first => first

/-- What comes after the first placeholder of a condition. -/
def tail : Condition → List Char
  | .anyLike first =>
    (" ESCAPE '\\' OR " ++ (likeText .specialization (first + 1) ++ " OR " ++
      likeText .company (first + 2) ++ ")")).toList
  | .among _ first count =>
    ((List.range' (first + 1) (count - 1)).flatMap fun n =>
      ", ".toList ++ (placeholder n).toList) ++ [')']
  | .salaryAtLeast _ => []

end Condition

theorem toList_placeholders (first count : Nat) :
    (placeholders first (count + 1)).toList =
      (placeholder first).toList ++
        (List.range' (first + 1) count).flatMap fun n => ", ".toList ++ (placeholder n).toList := by
  rw [placeholders, List.range'_succ, List.map_cons, toList_intercalate_cons, List.flatMap_map]

theorem toList_render {c : Condition} (hc : 0 < c.width) :
    c.render.toList = c.kind.head.toList ++ ((placeholder c.first).toList ++ c.tail) := by
  cases c with
  | anyLike first =>
    simp [render_anyLike, likeText, TextColumn.text, Condition.kind, Condition.first,
      Condition.tail, FilterKind.head]
  | among column first count =>
    obtain ⟨count, rfl⟩ := Nat.exists_eq_add_one.2 hc
    have hhead : column.text.toList ++ " IN (".toList = column.kind.head.toList := by
      cases column <;> rfl
    rw [render_among, String.toList_append, String.toList_append, String.toList_append, hhead,
      toList_placeholders, List.append_assoc, List.append_assoc]
    rfl
  | salaryAtLeast slot =>
    rw [render_salaryAtLeast, String.toList_append]
    exact congrArg _ (List.append_nil _).symm

theorem opens_tail (c : Condition) {X : List Char} (hX : Opens X) : Opens (c.tail ++ X) := by
  cases c with
  | anyLike first =>
    rw [Condition.tail, String.toList_append, List.append_assoc]
    exact Opens.append ⟨' ', _, rfl, rfl⟩ _
  | among column first count =>
    rw [Condition.tail, List.append_assoc]
    exact (Readable.placeholder.after ⟨',', _, rfl, rfl⟩).opens_flatMap ⟨')', _, rfl, rfl⟩ _
  | salaryAtLeast slot => exact hX

theorem eq_anyLike_of_kind {d : Condition} (h : d.kind = .text) : d = .anyLike d.first := by
  cases d with
  | anyLike first => rfl
  | among column first count => cases column <;> exact nomatch h
  | salaryAtLeast slot => exact nomatch h

theorem eq_salaryAtLeast_of_kind {d : Condition} (h : d.kind = .salary) :
    d = .salaryAtLeast d.first := by
  cases d with
  | anyLike first => exact nomatch h
  | among column first count => cases column <;> exact nomatch h
  | salaryAtLeast slot => rfl

theorem eq_among_of_kind {d : Condition} {column : ListColumn} (h : d.kind = column.kind) :
    d = .among column d.first d.width := by
  cases d with
  | anyLike first => cases column <;> exact nomatch h
  | among column' first count =>
    rw [ListColumn.eq_of_kind h]
    rfl
  | salaryAtLeast slot => cases column <;> exact nomatch h

/-- Conditions of one kind that begin alike are told apart by their length. -/
theorem tail_cancel {c d : Condition} {X Y : List Char} (hc : 0 < c.width) (hd : 0 < d.width)
    (hkind : c.kind = d.kind) (hfirst : c.first = d.first) (h : c.tail ++ X = d.tail ++ Y) :
    c = d ∧ X = Y := by
  cases c with
  | anyLike first =>
    rw [eq_anyLike_of_kind hkind.symm, ← hfirst] at h ⊢
    exact ⟨rfl, List.append_cancel_left h⟩
  | among column first count =>
    rw [eq_among_of_kind hkind.symm, ← hfirst] at h ⊢
    simp only [Condition.tail, Condition.first, List.append_assoc] at h
    have hend : ∀ (n : Nat) (Z W : List Char),
        ", ".toList ++ (placeholder n).toList ++ Z ≠ [')'] ++ W := by
      simp
    obtain ⟨hslots, hrest⟩ := (Readable.placeholder.after ⟨',', _, rfl, rfl⟩).flatMap_cancel
      ⟨')', _, rfl, rfl⟩ ⟨')', _, rfl, rfl⟩ (hend · · X) (hend · · Y) (fun _ _ => trivial)
      (fun _ _ => trivial) h
    have hcount : count - 1 = d.width - 1 := by
      simpa using congrArg List.length hslots
    have hwidth : count = d.width := by
      have : 0 < count := hc
      omega
    exact ⟨by rw [hwidth]; rfl, (List.cons.inj hrest).2⟩
  | salaryAtLeast slot =>
    rw [eq_salaryAtLeast_of_kind hkind.symm, ← hfirst] at h ⊢
    exact ⟨rfl, h⟩

/-- The text of a condition can be told from what comes after it. -/
theorem render_readable :
    Readable (fun c : Condition => 0 < c.width) fun c => c.render.toList where
  opens := opens_render
  cancel := by
    intro c d X Y hc hd hX hY h
    rw [toList_render hc, toList_render hd] at h
    simp only [List.append_assoc] at h
    obtain ⟨hkind, hrest⟩ := FilterKind.head_cancel h
    obtain ⟨hfirst, htail⟩ := Readable.placeholder.cancel trivial trivial (opens_tail c hX)
      (opens_tail d hY) hrest
    exact tail_cancel hc hd hkind hfirst htail

/-! ## Statements -/

/-- The order of the rows, up to the window. -/
def orderText : String := " ORDER BY v.updated_at DESC, v.id DESC LIMIT "

/-- What comes after the conditions of a statement. -/
def Statement.ending (s : Statement) : String :=
  orderText ++ (placeholder s.limitSlot ++ " OFFSET " ++ placeholder s.offsetSlot ++ ";")

theorem opens_ending (s : Statement) : Opens s.ending.toList := by
  rw [Statement.ending, String.toList_append]
  exact Opens.append ⟨' ', _, rfl, rfl⟩ _

theorem ending_ne (s : Statement) (c : Condition) (Z : List Char) :
    " AND ".toList ++ c.render.toList ++ Z ≠ s.ending.toList := by
  simp [Statement.ending, orderText]

theorem ending_ne_where (s : Statement) (Z : List Char) :
    " WHERE ".toList ++ Z ≠ s.ending.toList := by
  simp [Statement.ending, orderText]

theorem toList_whereText_nil : (whereText []).toList = [] := rfl

theorem toList_whereText_cons (c : Condition) (rest : List Condition) :
    (whereText (c :: rest)).toList =
      " WHERE ".toList ++ (c.render.toList ++
        rest.flatMap fun d => " AND ".toList ++ d.render.toList) := by
  rw [whereText_eq, List.map_cons, if_neg (List.cons_ne_nil _ _), String.toList_append,
    toList_intercalate_cons, List.flatMap_map]

theorem whereText_cancel {cs ds : List Condition} (hcs : ∀ c ∈ cs, 0 < c.width)
    (hds : ∀ d ∈ ds, 0 < d.width) {s t : Statement}
    (h : (whereText cs).toList ++ s.ending.toList = (whereText ds).toList ++ t.ending.toList) :
    cs = ds := by
  cases cs with
  | nil =>
    cases ds with
    | nil => rfl
    | cons d ds =>
      rw [toList_whereText_nil, List.nil_append, toList_whereText_cons, List.append_assoc] at h
      exact absurd h.symm (ending_ne_where s _)
  | cons c cs =>
    cases ds with
    | nil =>
      rw [toList_whereText_nil, List.nil_append, toList_whereText_cons, List.append_assoc] at h
      exact absurd h (ending_ne_where t _)
    | cons d ds =>
      rw [toList_whereText_cons, toList_whereText_cons, List.append_assoc, List.append_assoc,
        List.append_assoc, List.append_assoc] at h
      have hand : Opens " AND ".toList := ⟨' ', _, rfl, rfl⟩
      have hnext := render_readable.after hand
      obtain ⟨rfl, hrest⟩ := render_readable.cancel (hcs c List.mem_cons_self)
        (hds d List.mem_cons_self) (hnext.opens_flatMap (opens_ending s) cs)
        (hnext.opens_flatMap (opens_ending t) ds) (List.append_cancel_left h)
      obtain ⟨rfl, -⟩ := hnext.flatMap_cancel (opens_ending s) (opens_ending t) (ending_ne s)
        (ending_ne t) (fun c hc => hcs c (List.mem_cons_of_mem _ hc))
        (fun d hd => hds d (List.mem_cons_of_mem _ hd)) hrest
      rfl

/-- The conditions of a statement can be read back from its text. -/
theorem conditions_eq_of_render_eq {s t : Statement} (hs : ∀ c ∈ s.conditions, 0 < c.width)
    (ht : ∀ c ∈ t.conditions, 0 < c.width) (h : s.render = t.render) :
    s.conditions = t.conditions := by
  have htoList : ∀ u : Statement, u.render.toList =
      selectText.toList ++ ((whereText u.conditions).toList ++ u.ending.toList) := by
    intro u
    rw [← String.toList_append, ← String.toList_append, Statement.render, Statement.ending,
      orderText]
    simp only [String.append_assoc]
  have heq := congrArg String.toList h
  rw [htoList s, htoList t] at heq
  exact whereText_cancel hs ht (List.append_cancel_left heq)

/-! ## Shapes and texts -/

theorem width_pos_of_mem_placeForms {forms : List Condition} (h : ∀ c ∈ forms, 0 < c.width)
    (next : Nat) : ∀ c ∈ placeForms next forms, 0 < c.width := by
  induction forms generalizing next with
  | nil => exact fun c hc => nomatch hc
  | cons form rest ih =>
    intro c hc
    rcases List.mem_cons.1 hc with rfl | hrest
    · have hform := h form List.mem_cons_self
      cases form <;> exact hform
    · exact ih (fun c hc => h c (List.mem_cons_of_mem _ hc)) _ c hrest

theorem Shape.width_pos (s : Shape) : ∀ c ∈ s.statement.conditions, 0 < c.width := by
  apply width_pos_of_mem_placeForms
  intro c hc
  rcases mem_forms.1 hc with ⟨-, rfl⟩ | ⟨-, rfl⟩ | ⟨column, hpos, rfl⟩
  · exact Nat.succ_pos _
  · exact Nat.succ_pos _
  · exact hpos

/-- The texts for two criteria are the same exactly if their shapes are. -/
theorem render_eq_iff_shape_eq (a b : Criteria) :
    (compose a).statement.render = (compose b).statement.render ↔ a.shape = b.shape := by
  rw [statement_compose, statement_compose]
  constructor
  · intro h
    have hconditions : placeForms 1 a.shape.forms = placeForms 1 b.shape.forms :=
      conditions_eq_of_render_eq a.shape.width_pos b.shape.width_pos h
    -- taken back to the front, the placed conditions are the forms again
    have hforms := congrArg (List.map (Condition.moved 1)) hconditions
    rw [map_moved_placeForms fun c => moved_of_mem_forms,
      map_moved_placeForms fun c => moved_of_mem_forms] at hforms
    exact shape_eq_of_forms_eq hforms
  · intro h
    rw [h]

end JobBoard.Search
