import JobBoard.Proofs.Text.Lowercase
import JobBoard.Search.Execute

/-!
# What filters mean

A condition of a composed statement finds its own arguments among all that are bound, wherever the
filters before it end (`map_truth_placeFilters`). Its three-valued truth is therefore that of the
filter alone, and a row is kept exactly if it is one that the criteria admit (`keeps_iff`).
-/

set_option autoImplicit false

namespace JobBoard.Search

open Store

/-! ## What criteria ask for -/

/-- A text has another one in it, whatever the case of their letters. -/
def Mentions (text part : String) : Prop :=
  (Text.lowercase part).toList <:+: (Text.lowercase text).toList

/-- What a row has to be for the filters that are present. A blank text and an empty list do not
filter. -/
structure Criteria.Admits (c : Criteria) (j : Joined) : Prop where
  text : ∀ s, c.freeText = some s → Text.trim s ≠ "" →
    Mentions j.vacancy.title (Text.trim s) ∨ Mentions j.company (Text.trim s) ∨
      ∃ name, j.specialization = some name ∧ Mentions name (Text.trim s)
  category : ∀ ids, c.categoryIds = some ids → ids ≠ [] →
    ∃ id ∈ ids, j.vacancy.specializationId = some id
  salary : ∀ floor, c.minValue = some floor → ∃ n, j.vacancy.salaryFrom = some n ∧ floor ≤ n
  employment : ∀ es, c.employmentTypes = some es → es ≠ [] →
    ∃ e ∈ es, e.text = j.vacancy.employment
  experience : ∀ es, c.experienceLevels = some es → es ≠ [] →
    ∃ e ∈ es, e.text = j.vacancy.experience

/-- The texts of a row that the text filter looks at have no NUL. -/
structure Joined.NulFree (j : Joined) : Prop where
  title : Text.NulFree j.vacancy.title.toList
  company : Text.NulFree j.company.toList
  specialization : ∀ name, j.specialization = some name → Text.NulFree name.toList

/-- The text to look for has no NUL, and its pattern is not too long for the store. -/
structure Criteria.Searchable (c : Criteria) : Prop where
  nulFree : ∀ s, c.freeText = some s → Text.NulFree s.toList
  short : ∀ t, c.textFilter = some t → (patternOf t).utf8ByteSize ≤ Text.patternByteLimit

theorem textFilter_eq_some_iff (c : Criteria) (t : String) :
    c.textFilter = some t ↔ ∃ s, c.freeText = some s ∧ Text.trim s ≠ "" ∧ Text.trim s = t := by
  unfold Criteria.textFilter
  cases c.freeText with
  | none => simp
  | some s =>
    by_cases hblank : Text.trim s = ""
    · simp [hblank]
    · simp [hblank]

theorem someList_eq_some_iff {α : Type} (o : Option (List α)) (l : List α) :
    someList o = some l ↔ o = some l ∧ l ≠ [] := by
  match o with
  | none => simp [someList]
  | some [] => simp [someList]
  | some (a :: rest) =>
    show some (a :: rest) = some l ↔ _
    constructor
    · intro h
      obtain rfl := Option.some.inj h
      exact ⟨rfl, List.cons_ne_nil a rest⟩
    · exact fun h => h.1

/-! ## The truth of a condition -/

theorem truth_among (args : List Argument) (j : Joined) (column : ListColumn) (first count : Nat) :
    (Condition.among column first count).truth args j =
      .ok ((column.value j).map fun v => ((args.drop (first - 1)).take count).contains v) := rfl

theorem truth_salaryAtLeast (args : List Argument) (j : Joined) (slot : Nat) :
    (Condition.salaryAtLeast slot).truth args j =
      .ok (match j.vacancy.salaryFrom, argument? args slot with
        | some n, some (.integer floor) => some (decide (floor ≤ n))
        | _, _ => none) := rfl

/-- One column of the text filter, judged after those before it. -/
def likeStep (args : List Argument) (j : Joined) (sofar : Truth) (p : TextColumn × Nat) :
    Except Refusal Truth :=
  match argument? args p.2 with
  | some (.text pattern) =>
    if sofar = some true then .ok sofar
    else if Text.patternByteLimit < pattern.utf8ByteSize then .error .patternTooLong
    else .ok (sofar.or (likeTruth pattern (p.1.value j)))
  | _ => .ok (sofar.or none)

theorem truth_anyLike (args : List Argument) (j : Joined) (first : Nat) :
    (Condition.anyLike first).truth args j =
      [(TextColumn.title, first), (.specialization, first + 1), (.company, first + 2)].foldlM
        (likeStep args j) (some false) := rfl

theorem truth_or_eq_true_iff (a b : Truth) :
    a.or b = some true ↔ a = some true ∨ b = some true := by
  rcases a with _ | _ | _ <;> rcases b with _ | _ | _ <;> simp [Truth.or]

/-- A pattern that is not too long is judged on its column. -/
theorem likeStep_of_short {args : List Argument} {slot : Nat} {pattern : String}
    (harg : argument? args slot = some (.text pattern))
    (hshort : pattern.utf8ByteSize ≤ Text.patternByteLimit) (j : Joined) (sofar : Truth)
    (column : TextColumn) :
    likeStep args j sofar (column, slot) = .ok (sofar.or (likeTruth pattern (column.value j))) := by
  unfold likeStep
  rw [harg]
  show (if sofar = some true then Except.ok sofar
    else if Text.patternByteLimit < pattern.utf8ByteSize then .error Refusal.patternTooLong
    else .ok (sofar.or (likeTruth pattern (column.value j)))) = _
  split
  · rename_i htrue
    subst htrue
    rfl
  · rw [if_neg (by omega)]

/-! ## Placeholders -/

/-- The truth of a filter that stands first and has only its own arguments. -/
def Filter.truth (f : Filter) (j : Joined) : Except Refusal Truth :=
  (f.condition 1).truth f.arguments j

/-- Wherever a filter is placed, its truth is that of the filter alone. -/
def Filter.Movable (f : Filter) : Prop :=
  ∀ (before after : List Argument) (j : Joined),
    (f.condition (before.length + 1)).truth (before ++ f.arguments ++ after) j = f.truth j

theorem argument?_append (before args after : List Argument) {i : Nat} (hi : i < args.length) :
    argument? (before ++ args ++ after) (before.length + 1 + i) = argument? args (1 + i) := by
  unfold argument?
  have hslot : before.length + 1 + i - 1 = before.length + i := by omega
  have hown : 1 + i - 1 = i := by omega
  rw [hslot, hown, List.append_assoc, List.getElem?_append_right (by omega)]
  rw [Nat.add_sub_cancel_left, List.getElem?_append_left hi]

theorem movable_listFilterOf (column : ListColumn) (args : List Argument) :
    (listFilterOf column args).Movable := by
  intro before after j
  show (Condition.among column (before.length + 1) args.length).truth _ j =
    (Condition.among column 1 args.length).truth args j
  have hplaced : ((before ++ args ++ after).drop (before.length + 1 - 1)).take args.length =
      args := by
    rw [Nat.add_sub_cancel, List.append_assoc, List.drop_left, List.take_left]
  have halone : (args.drop (1 - 1)).take args.length = args := by
    rw [Nat.sub_self, List.drop_zero, List.take_length]
  rw [truth_among, truth_among, halone]
  exact congrArg (fun l => Except.ok ((column.value j).map fun v => List.contains l v)) hplaced

theorem movable_salaryFilterOf (floor : Int) : (salaryFilterOf floor).Movable := by
  intro before after j
  show (Condition.salaryAtLeast (before.length + 1)).truth (before ++ [.integer floor] ++ after) j =
    (Condition.salaryAtLeast 1).truth [.integer floor] j
  have hslot := argument?_append before [.integer floor] after (i := 0) (by simp)
  rw [truth_salaryAtLeast, truth_salaryAtLeast]
  rw [show before.length + 1 = before.length + 1 + 0 from rfl, hslot]

theorem likeStep_congr {args args' : List Argument} {slot slot' : Nat}
    (h : argument? args slot = argument? args' slot') (j : Joined) (sofar : Truth)
    (column : TextColumn) :
    likeStep args j sofar (column, slot) = likeStep args' j sofar (column, slot') := by
  unfold likeStep
  rw [h]

theorem movable_textFilterOf (text : String) : (textFilterOf text).Movable := by
  intro before after j
  show (Condition.anyLike (before.length + 1)).truth
      (before ++ (textFilterOf text).arguments ++ after) j =
    (Condition.anyLike 1).truth (textFilterOf text).arguments j
  have hslot : ∀ i, i < 3 → ∀ sofar column,
      likeStep (before ++ (textFilterOf text).arguments ++ after) j sofar
          (column, before.length + 1 + i) =
        likeStep (textFilterOf text).arguments j sofar (column, 1 + i) := by
    intro i hi sofar column
    exact likeStep_congr (argument?_append before _ after hi) j sofar column
  rw [truth_anyLike, truth_anyLike]
  have h0 := hslot 0 (by omega)
  have h1 := hslot 1 (by omega)
  have h2 := hslot 2 (by omega)
  simp only [Nat.add_zero] at h0
  simp only [List.foldlM_cons, List.foldlM_nil, h0, h1, h2]

/-- Each condition of a composed statement has the truth of the filter it comes from, by induction
on the filters; the arguments of those that are done stand before. -/
theorem map_truth_placeFilters (j : Joined) (after : List Argument) (fs : List Filter)
    (hfs : ∀ f ∈ fs, f.Movable) (before : List Argument) :
    (placeFilters (before.length + 1) fs).map
        (Condition.truth (before ++ fs.flatMap Filter.arguments ++ after) j) =
      fs.map fun f => f.truth j := by
  induction fs generalizing before with
  | nil => rfl
  | cons f rest ih =>
    have hrest : ∀ g ∈ rest, g.Movable := fun g hg => hfs g (List.mem_cons_of_mem f hg)
    have hf := hfs f List.mem_cons_self before (rest.flatMap Filter.arguments ++ after) j
    have htail := ih hrest (before ++ f.arguments)
    -- the arguments of the first filter go over to those that stand before the rest
    have hargs : before ++ (f :: rest).flatMap Filter.arguments ++ after =
        before ++ f.arguments ++ (rest.flatMap Filter.arguments ++ after) := by
      rw [List.flatMap_cons]
      simp only [List.append_assoc]
    have hnext : (before ++ f.arguments).length + 1 = before.length + 1 + f.arguments.length := by
      rw [List.length_append]
      omega
    unfold placeFilters
    rw [List.map_cons, List.map_cons, hargs, hf, ← hnext]
    rw [← htail, List.append_assoc (before ++ f.arguments)]

/-! ## The truth of a filter -/

theorem mem_filters_iff (c : Criteria) (f : Filter) :
    f ∈ c.filters ↔
      (∃ t, c.textFilter = some t ∧ textFilterOf t = f) ∨
      (∃ ids, c.categoryFilter = some ids ∧
        listFilterOf .specialization (ids.map .integer) = f) ∨
      (∃ floor, c.minValue = some floor ∧ salaryFilterOf floor = f) ∨
      (∃ es, c.employmentFilter = some es ∧
        listFilterOf .employment (es.map fun e => .text e.text) = f) ∨
      ∃ es, c.experienceFilter = some es ∧
        listFilterOf .experience (es.map fun e => .text e.text) = f := by
  unfold Criteria.filters
  simp only [List.mem_append, Option.mem_toList, Option.map_eq_some_iff, or_assoc]

theorem movable_of_mem_filters {c : Criteria} {f : Filter} (hf : f ∈ c.filters) : f.Movable := by
  rcases (mem_filters_iff c f).1 hf with
    ⟨t, -, rfl⟩ | ⟨ids, -, rfl⟩ | ⟨floor, -, rfl⟩ | ⟨es, -, rfl⟩ | ⟨es, -, rfl⟩
  · exact movable_textFilterOf t
  · exact movable_listFilterOf _ _
  · exact movable_salaryFilterOf floor
  · exact movable_listFilterOf _ _
  · exact movable_listFilterOf _ _

/-- A filter with a truth that is known, and true exactly if a condition holds. -/
def Filter.Decides (f : Filter) (j : Joined) (P : Prop) : Prop :=
  ∃ t, f.truth j = .ok t ∧ (t = some true ↔ P)

theorem listFilterOf_decides (column : ListColumn) (args : List Argument) (j : Joined) :
    (listFilterOf column args).Decides j (∃ v ∈ args, column.value j = some v) := by
  have halone : (args.drop (1 - 1)).take args.length = args := by
    rw [Nat.sub_self, List.drop_zero, List.take_length]
  refine ⟨(column.value j).map fun v => args.contains v, ?_, ?_⟩
  · show (Condition.among column 1 args.length).truth args j = _
    rw [truth_among, halone]
  · cases column.value j with
    | none => simp
    | some v => simp

theorem salaryFilterOf_decides (floor : Int) (j : Joined) :
    (salaryFilterOf floor).Decides j (∃ n, j.vacancy.salaryFrom = some n ∧ floor ≤ n) := by
  refine ⟨j.vacancy.salaryFrom.map fun n => decide (floor ≤ n), ?_, ?_⟩
  · show (Condition.salaryAtLeast 1).truth [.integer floor] j = _
    rw [truth_salaryAtLeast]
    cases j.vacancy.salaryFrom <;> rfl
  · cases j.vacancy.salaryFrom with
    | none => simp
    | some n => simp

/-- A text is like the pattern of another one if it mentions it. -/
theorem likeTruth_patternOf_iff {t s : String} (ht : Text.NulFree t.toList)
    (hs : Text.NulFree s.toList) : likeTruth (patternOf t) (some s) = some true ↔ Mentions s t := by
  have hlike := Text.like_containing_lowerList_iff ht hs
  unfold likeTruth patternOf Mentions Text.lowercase
  rw [Option.map_some, Option.some.injEq, String.toList_ofList, String.toList_ofList,
    String.toList_ofList]
  exact hlike

/-- A text filter whose pattern is not too long is judged on all three columns. -/
theorem truth_textFilterOf {t : String}
    (hshort : (patternOf t).utf8ByteSize ≤ Text.patternByteLimit) (j : Joined) :
    (textFilterOf t).truth j =
      .ok (((Truth.or (some false) (likeTruth (patternOf t) (some j.vacancy.title))).or
        (likeTruth (patternOf t) j.specialization)).or
          (likeTruth (patternOf t) (some j.company))) := by
  have hstep : ∀ i, i < 3 → ∀ sofar (column : TextColumn),
      likeStep (textFilterOf t).arguments j sofar (column, 1 + i) =
        .ok (sofar.or (likeTruth (patternOf t) (column.value j))) := by
    intro i hi sofar column
    refine likeStep_of_short ?_ hshort j sofar column
    match i, hi with
    | 0, _ => rfl
    | 1, _ => rfl
    | 2, _ => rfl
  have h0 := hstep 0 (by omega)
  have h1 := hstep 1 (by omega)
  have h2 := hstep 2 (by omega)
  show (Condition.anyLike 1).truth (textFilterOf t).arguments j = _
  rw [truth_anyLike]
  simp only [Nat.add_zero] at h0
  simp only [List.foldlM_cons, List.foldlM_nil, h0, h1, h2, bind, Except.bind, pure, Except.pure]
  rfl

theorem textFilterOf_decides {t : String} (ht : Text.NulFree t.toList)
    (hshort : (patternOf t).utf8ByteSize ≤ Text.patternByteLimit) {j : Joined} (hj : j.NulFree) :
    (textFilterOf t).Decides j (Mentions j.vacancy.title t ∨ Mentions j.company t ∨
      ∃ name, j.specialization = some name ∧ Mentions name t) := by
  refine ⟨_, truth_textFilterOf hshort j, ?_⟩
  have htitle := likeTruth_patternOf_iff ht hj.title
  have hcompany := likeTruth_patternOf_iff ht hj.company
  have hname : likeTruth (patternOf t) j.specialization = some true ↔
      ∃ name, j.specialization = some name ∧ Mentions name t := by
    cases hspecialization : j.specialization with
    | none => simp [likeTruth]
    | some name =>
      rw [likeTruth_patternOf_iff ht (hj.specialization name hspecialization)]
      simp
  rw [truth_or_eq_true_iff, truth_or_eq_true_iff, truth_or_eq_true_iff, htitle, hcompany, hname]
  constructor
  · rintro (((h | h) | h) | h)
    · simp at h
    · exact .inl h
    · exact .inr (.inr h)
    · exact .inr (.inl h)
  · rintro (h | h | h)
    · exact .inl (.inl (.inr h))
    · exact .inr h
    · exact .inl (.inr h)

theorem Filter.Decides.congr {f : Filter} {j : Joined} {P Q : Prop} (h : f.Decides j P)
    (hPQ : P ↔ Q) : f.Decides j Q := by
  obtain ⟨t, ht, hiff⟩ := h
  exact ⟨t, ht, hiff.trans hPQ⟩

theorem Filter.Decides.truth_iff {f : Filter} {j : Joined} {P : Prop} (h : f.Decides j P) :
    f.truth j = .ok (some true) ↔ P := by
  obtain ⟨t, ht, hiff⟩ := h
  rw [ht, Except.ok.injEq]
  exact hiff

theorem categoryFilter_decides (ids : List Int) (j : Joined) :
    (listFilterOf .specialization (ids.map .integer)).Decides j
      (∃ id ∈ ids, j.vacancy.specializationId = some id) := by
  refine (listFilterOf_decides .specialization (ids.map .integer) j).congr ?_
  show (∃ v ∈ ids.map Argument.integer,
    j.vacancy.specializationId.map Argument.integer = some v) ↔ _
  cases j.vacancy.specializationId with
  | none => simp
  | some id => simp

/-- A filter on a column with a closed list of texts. -/
theorem textsFilter_decides {α : Type} (text : α → String) (as : List α) {column : ListColumn}
    {j : Joined} {held : String} (hheld : column.value j = some (.text held)) :
    (listFilterOf column (as.map fun a => .text (text a))).Decides j
      (∃ a ∈ as, text a = held) := by
  refine (listFilterOf_decides column (as.map fun a => .text (text a)) j).congr ?_
  rw [hheld]
  simp [eq_comm]

theorem employmentFilter_decides (es : List Employment) (j : Joined) :
    (listFilterOf .employment (es.map fun e => .text e.text)).Decides j
      (∃ e ∈ es, e.text = j.vacancy.employment) :=
  textsFilter_decides Employment.text es rfl

theorem experienceFilter_decides (es : List Experience) (j : Joined) :
    (listFilterOf .experience (es.map fun e => .text e.text)).Decides j
      (∃ e ∈ es, e.text = j.vacancy.experience) :=
  textsFilter_decides Experience.text es rfl

/-! ## The filters of criteria -/

variable {c : Criteria} {j : Joined}

/-- What a row has to be for the filters that are present, with the text filter judged as the store
judges it. -/
structure Criteria.Fits (c : Criteria) (j : Joined) : Prop where
  text : ∀ t, c.textFilter = some t → (textFilterOf t).truth j = .ok (some true)
  category : ∀ ids, c.categoryIds = some ids → ids ≠ [] →
    ∃ id ∈ ids, j.vacancy.specializationId = some id
  salary : ∀ floor, c.minValue = some floor → ∃ n, j.vacancy.salaryFrom = some n ∧ floor ≤ n
  employment : ∀ es, c.employmentTypes = some es → es ≠ [] →
    ∃ e ∈ es, e.text = j.vacancy.employment
  experience : ∀ es, c.experienceLevels = some es → es ≠ [] →
    ∃ e ∈ es, e.text = j.vacancy.experience

/-- The pattern of the text filter is not too long for the store. -/
def Criteria.Short (c : Criteria) : Prop :=
  ∀ t, c.textFilter = some t → (patternOf t).utf8ByteSize ≤ Text.patternByteLimit

theorem forall_truth_iff_fits (c : Criteria) (j : Joined) :
    (∀ f ∈ c.filters, f.truth j = .ok (some true)) ↔ c.Fits j := by
  constructor
  · intro h
    refine ⟨fun t ht => ?_, fun ids hids hne => ?_, fun floor hfloor => ?_,
      fun es hes hne => ?_, fun es hes hne => ?_⟩
    · exact h _ ((mem_filters_iff c _).2 (.inl ⟨t, ht, rfl⟩))
    · have hfilter := (someList_eq_some_iff c.categoryIds ids).2 ⟨hids, hne⟩
      exact (categoryFilter_decides ids j).truth_iff.1
        (h _ ((mem_filters_iff c _).2 (.inr (.inl ⟨ids, hfilter, rfl⟩))))
    · exact (salaryFilterOf_decides floor j).truth_iff.1
        (h _ ((mem_filters_iff c _).2 (.inr (.inr (.inl ⟨floor, hfloor, rfl⟩)))))
    · have hfilter := (someList_eq_some_iff c.employmentTypes es).2 ⟨hes, hne⟩
      exact (employmentFilter_decides es j).truth_iff.1
        (h _ ((mem_filters_iff c _).2 (.inr (.inr (.inr (.inl ⟨es, hfilter, rfl⟩))))))
    · have hfilter := (someList_eq_some_iff c.experienceLevels es).2 ⟨hes, hne⟩
      exact (experienceFilter_decides es j).truth_iff.1
        (h _ ((mem_filters_iff c _).2 (.inr (.inr (.inr (.inr ⟨es, hfilter, rfl⟩))))))
  · intro h f hf
    rcases (mem_filters_iff c f).1 hf with
      ⟨t, ht, rfl⟩ | ⟨ids, hids, rfl⟩ | ⟨floor, hfloor, rfl⟩ | ⟨es, hes, rfl⟩ | ⟨es, hes, rfl⟩
    · exact h.text t ht
    · obtain ⟨hsome, hne⟩ := (someList_eq_some_iff c.categoryIds ids).1 hids
      exact (categoryFilter_decides ids j).truth_iff.2 (h.category ids hsome hne)
    · exact (salaryFilterOf_decides floor j).truth_iff.2 (h.salary floor hfloor)
    · obtain ⟨hsome, hne⟩ := (someList_eq_some_iff c.employmentTypes es).1 hes
      exact (employmentFilter_decides es j).truth_iff.2 (h.employment es hsome hne)
    · obtain ⟨hsome, hne⟩ := (someList_eq_some_iff c.experienceLevels es).1 hes
      exact (experienceFilter_decides es j).truth_iff.2 (h.experience es hsome hne)

/-- Where texts hold no NUL, the text filter is judged by what the texts mention. -/
theorem Criteria.Searchable.fits_iff_admits (hc : c.Searchable) (hj : j.NulFree) :
    c.Fits j ↔ c.Admits j := by
  have hdecides : ∀ s, c.freeText = some s → ∀ hblank : Text.trim s ≠ "",
      (textFilterOf (Text.trim s)).Decides j (Mentions j.vacancy.title (Text.trim s) ∨
        Mentions j.company (Text.trim s) ∨
          ∃ name, j.specialization = some name ∧ Mentions name (Text.trim s)) := by
    intro s hs hblank
    have ht := (textFilter_eq_some_iff c _).2 ⟨s, hs, hblank, rfl⟩
    exact textFilterOf_decides (Text.nulFree_trim (hc.nulFree s hs)) (hc.short _ ht) hj
  constructor
  · intro h
    refine ⟨fun s hs hblank => ?_, h.category, h.salary, h.employment, h.experience⟩
    have ht := (textFilter_eq_some_iff c _).2 ⟨s, hs, hblank, rfl⟩
    exact (hdecides s hs hblank).truth_iff.1 (h.text _ ht)
  · intro h
    refine ⟨fun t ht => ?_, h.category, h.salary, h.employment, h.experience⟩
    obtain ⟨s, hs, hblank, rfl⟩ := (textFilter_eq_some_iff c t).1 ht
    exact (hdecides s hs hblank).truth_iff.2 (h.text s hs hblank)

/-- No filter is at a loss about a row, unless its pattern is too long. -/
theorem decided_of_mem_filters (hshort : c.Short) (j : Joined) {f : Filter} (hf : f ∈ c.filters) :
    ∃ t, f.truth j = .ok t := by
  rcases (mem_filters_iff c f).1 hf with
    ⟨t, ht, rfl⟩ | ⟨ids, -, rfl⟩ | ⟨floor, -, rfl⟩ | ⟨es, -, rfl⟩ | ⟨es, -, rfl⟩
  · exact ⟨_, truth_textFilterOf (hshort t ht) j⟩
  · obtain ⟨b, hb, -⟩ := categoryFilter_decides ids j
    exact ⟨b, hb⟩
  · obtain ⟨b, hb, -⟩ := salaryFilterOf_decides floor j
    exact ⟨b, hb⟩
  · obtain ⟨b, hb, -⟩ := employmentFilter_decides es j
    exact ⟨b, hb⟩
  · obtain ⟨b, hb, -⟩ := experienceFilter_decides es j
    exact ⟨b, hb⟩

/-! ## The rows that are kept -/

theorem mem_judged_iff (cs : List Condition) (cond : Condition) :
    cond ∈ judged cs ↔ cond ∈ cs := by
  unfold judged
  rw [List.mem_append, List.mem_filter, List.mem_filter]
  cases hcostly : cond.isCostly <;> simp

/-- The conditions of a composed statement are judged in another order, but their truths are those
of the filters. -/
theorem forall_judged_truth_iff (c : Criteria) (j : Joined) (P : Except Refusal Truth → Prop) :
    (∀ cond ∈ judged (compose c).statement.conditions, P (cond.truth (compose c).arguments j)) ↔
      ∀ f ∈ c.filters, P (f.truth j) := by
  have htruths := map_truth_placeFilters j [.integer c.limit, .integer c.offset] c.filters
    (fun f hf => movable_of_mem_filters hf) []
  have htruth : (compose c).statement.conditions.map (Condition.truth (compose c).arguments j) =
      c.filters.map fun f => f.truth j := htruths
  simp only [mem_judged_iff]
  rw [← List.forall_mem_map (f := Condition.truth (compose c).arguments j), htruth,
    List.forall_mem_map]

/-- A row satisfies conditions exactly if each of them is true. -/
theorem satisfies_eq_true_iff (args : List Argument) (j : Joined) (cs : List Condition) :
    satisfies args j cs = .ok true ↔ ∀ cond ∈ cs, cond.truth args j = .ok (some true) := by
  induction cs with
  | nil => simp [satisfies]
  | cons cond rest ih =>
    unfold satisfies
    rw [List.forall_mem_cons, ← ih]
    cases cond.truth args j with
    | error cause => simp
    | ok t =>
      -- the first condition that is not true ends the judgement of the row
      by_cases htrue : t = some true
      · simp [htrue]
      · simp [htrue]

/-- Conditions whose truth is known are judged without a refusal. -/
theorem exists_satisfies {args : List Argument} {j : Joined} {cs : List Condition}
    (h : ∀ cond ∈ cs, ∃ t, cond.truth args j = .ok t) : ∃ b, satisfies args j cs = .ok b := by
  induction cs with
  | nil => exact ⟨true, rfl⟩
  | cons cond rest ih =>
    obtain ⟨t, ht⟩ := h cond List.mem_cons_self
    obtain ⟨b, hb⟩ := ih fun cond' hcond => h cond' (List.mem_cons_of_mem cond hcond)
    unfold satisfies
    rw [ht]
    show ∃ b, (if t = some true then satisfies args j rest else .ok false) = .ok b
    split
    · exact ⟨b, hb⟩
    · exact ⟨false, rfl⟩

/-- Whether a composed search keeps a row. -/
def Composed.keeps (q : Composed) (j : Joined) : Bool :=
  match satisfies q.arguments j (judged q.statement.conditions) with
  | .ok b => b
  | .error _ => false

theorem Composed.keeps_of_satisfies {q : Composed} {j : Joined} {b : Bool}
    (h : satisfies q.arguments j (judged q.statement.conditions) = .ok b) : q.keeps j = b := by
  unfold Composed.keeps
  rw [h]

theorem keeps_iff_fits (c : Criteria) (j : Joined) : (compose c).keeps j = true ↔ c.Fits j := by
  rw [← forall_truth_iff_fits, ← forall_judged_truth_iff c j fun t => t = .ok (some true),
    ← satisfies_eq_true_iff]
  unfold Composed.keeps
  cases satisfies (compose c).arguments j (judged (compose c).statement.conditions) with
  | error cause => simp
  | ok b => simp

/-- A composed search judges every row, unless its pattern is too long. -/
theorem satisfies_of_short (hshort : c.Short) (j : Joined) :
    satisfies (compose c).arguments j (judged (compose c).statement.conditions) =
      .ok ((compose c).keeps j) := by
  have hdecided := (forall_judged_truth_iff c j fun truth => ∃ t, truth = .ok t).2
    fun f hf => decided_of_mem_filters hshort j hf
  obtain ⟨b, hb⟩ := exists_satisfies hdecided
  rw [Composed.keeps_of_satisfies hb]
  exact hb

/-- A composed search judges every row and keeps those that the criteria admit. -/
theorem keeps_iff (hc : c.Searchable) (hj : j.NulFree) :
    satisfies (compose c).arguments j (judged (compose c).statement.conditions) =
        .ok ((compose c).keeps j) ∧
      ((compose c).keeps j = true ↔ c.Admits j) :=
  ⟨satisfies_of_short hc.short j, (keeps_iff_fits c j).trans (hc.fits_iff_admits hj)⟩

theorem selectRows_eq_filter (q : Composed) (rows : List Joined)
    (h : ∀ j ∈ rows, satisfies q.arguments j (judged q.statement.conditions) = .ok (q.keeps j)) :
    selectRows q rows = .ok (rows.filter q.keeps) := by
  induction rows with
  | nil => rfl
  | cons j rest ih =>
    have hrest := ih fun j' hj' => h j' (List.mem_cons_of_mem j hj')
    unfold selectRows
    rw [h j List.mem_cons_self, hrest, List.filter_cons]

/-- Rows that were all judged are those that are kept. -/
theorem eq_filter_of_selectRows {q : Composed} {rows kept : List Joined}
    (h : selectRows q rows = .ok kept) : kept = rows.filter q.keeps := by
  induction rows generalizing kept with
  | nil =>
    obtain rfl : [] = kept := Except.ok.inj h
    rfl
  | cons j rest ih =>
    unfold selectRows at h
    cases hj : satisfies q.arguments j (judged q.statement.conditions) with
    | error cause => simp [hj] at h
    | ok b =>
      cases hrest : selectRows q rest with
      | error cause => simp [hj, hrest] at h
      | ok kept' =>
        simp only [hj, hrest, Except.ok.injEq] at h
        rw [← h, ih hrest, List.filter_cons, Composed.keeps_of_satisfies hj]

end JobBoard.Search
