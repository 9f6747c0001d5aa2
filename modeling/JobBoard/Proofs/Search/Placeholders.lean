import JobBoard.Proofs.Search.Filters
import Mathlib.Data.List.Forall2

/-!
# Placeholders in the text of a statement

The placeholders of a statement are read off its text: each is a question mark and the digits after
it (`slots`). Read from left to right they count the arguments, and those of a fragment stand for
the values of its own filter. The main theorem is `compose_lines_up`.
-/

set_option autoImplicit false

namespace JobBoard.Search

/-! ## Numerals in a text -/

/-- A text begins with something other than a digit, so a numeral before it ends there. -/
def Opens (text : List Char) : Prop := ∃ c rest, text = c :: rest ∧ c.isDigit = false

theorem Opens.append {text : List Char} (h : Opens text) (rest : List Char) :
    Opens (text ++ rest) := by
  obtain ⟨c, tail, rfl, hc⟩ := h
  exact ⟨c, tail ++ rest, rfl, hc⟩

theorem takeWhile_isDigit_append {rest : List Char} (hrest : Opens rest) (text : List Char) :
    (text ++ rest).takeWhile Char.isDigit = text.takeWhile Char.isDigit := by
  obtain ⟨c, tail, rfl, hc⟩ := hrest
  induction text with
  | nil => simp [hc]
  | cons d text ih =>
    rw [List.cons_append, List.takeWhile_cons, List.takeWhile_cons, ih]

theorem takeWhile_isDigit_toDigits (n : Nat) :
    (Nat.toDigits 10 n).takeWhile Char.isDigit = Nat.toDigits 10 n := by
  rw [List.takeWhile_eq_self_iff]
  intro c hc
  exact Nat.isDigit_of_mem_toDigits (by decide) (by decide) hc

/-! ## Reading placeholders -/

/-- The numbers of the placeholders among some characters, from left to right. -/
def slotsIn : List Char → List Nat
  | [] => []
  | c :: rest =>
    if c = '?' then Nat.ofDigitChars 10 (rest.takeWhile Char.isDigit) 0 :: slotsIn rest
    else slotsIn rest

/-- The numbers of the placeholders in a text, from left to right. -/
def slots (text : String) : List Nat := slotsIn text.toList

theorem slotsIn_of_plain {text : List Char} (h : '?' ∉ text) : slotsIn text = [] := by
  induction text with
  | nil => rfl
  | cons c rest ih =>
    obtain ⟨hc, hrest⟩ := not_or.1 (mt List.mem_cons.2 h)
    rw [slotsIn, if_neg (Ne.symm hc), ih hrest]

theorem slotsIn_append {rest : List Char} (hrest : Opens rest) (text : List Char) :
    slotsIn (text ++ rest) = slotsIn text ++ slotsIn rest := by
  induction text with
  | nil => rfl
  | cons c text ih =>
    rw [List.cons_append, slotsIn, slotsIn, ih, takeWhile_isDigit_append hrest]
    split <;> rfl

theorem slots_append {rest : String} (hrest : Opens rest.toList) (text : String) :
    slots (text ++ rest) = slots text ++ slots rest := by
  rw [slots, String.toList_append, slotsIn_append hrest]
  rfl

theorem slots_of_plain {text : String} (h : '?' ∉ text.toList) : slots text = [] :=
  slotsIn_of_plain h

/-- What has no placeholder in it can be skipped. -/
theorem slots_append_of_plain {text : String} (h : '?' ∉ text.toList) (rest : String) :
    slots (text ++ rest) = slots rest := by
  rw [slots, String.toList_append]
  generalize text.toList = cs at h ⊢
  induction cs with
  | nil => rfl
  | cons c cs ih =>
    obtain ⟨hc, hcs⟩ := not_or.1 (mt List.mem_cons.2 h)
    rw [List.cons_append, slotsIn, if_neg (Ne.symm hc), ih hcs]

theorem toList_placeholder (n : Nat) : (placeholder n).toList = '?' :: Nat.toDigits 10 n := by
  simp [placeholder]

theorem opens_placeholder (n : Nat) : Opens (placeholder n).toList :=
  ⟨'?', _, toList_placeholder n, rfl⟩

theorem slots_placeholder (n : Nat) : slots (placeholder n) = [n] := by
  have hdigits : '?' ∉ Nat.toDigits 10 n := by
    intro hmem
    exact absurd (Nat.isDigit_of_mem_toDigits (by decide) (by decide) hmem) (by decide)
  rw [slots, toList_placeholder, slotsIn, if_pos rfl, takeWhile_isDigit_toDigits,
    Nat.ofDigitChars_ten_toDigits, slotsIn_of_plain hdigits]

theorem opens_intercalate {sep text : String} (h : Opens text.toList) (rest : List String) :
    Opens (sep.intercalate (text :: rest)).toList := by
  cases rest with
  | nil => rwa [String.intercalate_singleton]
  | cons next rest =>
    rw [String.intercalate_cons_cons, String.append_assoc, String.toList_append]
    exact h.append _

theorem slots_intercalate {sep : String} (hopens : Opens sep.toList) (hsep : slots sep = [])
    {texts : List String} (h : ∀ text ∈ texts, Opens text.toList) :
    slots (sep.intercalate texts) = texts.flatMap slots := by
  induction texts with
  | nil => rfl
  | cons text rest ih =>
    cases rest with
    | nil => simp
    | cons next rest =>
      have hnext : Opens (sep.intercalate (next :: rest)).toList :=
        opens_intercalate (h next (by simp)) rest
      rw [String.intercalate_cons_cons, slots_append hnext, slots_append hopens, hsep,
        List.append_nil, ih fun text htext => h text (List.mem_cons_of_mem _ htext)]
      rfl

/-! ## Fragments -/

/-- The kinds of filters. -/
inductive FilterKind where
  | text
  | specialization
  | salary
  | employment
  | experience
  deriving DecidableEq, Repr

namespace FilterKind

/-- All kinds, in the order of their fragments. -/
def all : List FilterKind := [.text, .specialization, .salary, .employment, .experience]

/-- A text in lower case and taken literally, with anything before it and after it. -/
def anywhere (text : String) : String :=
  "%" ++ String.ofList (Text.escape (Text.lowercase text).toList) ++ "%"

/-- The values that the filter of a kind compares with; nothing if there is no such filter. -/
def values? (c : Criteria) : FilterKind → Option (List Argument)
  | .text => c.textFilter.map fun text => List.replicate 3 (.text (anywhere text))
  | .specialization => c.categoryFilter.map fun ids => ids.map .integer
  | .salary => c.minValue.map fun floor => [.integer floor]
  | .employment => c.employmentFilter.map fun es => es.map fun e => .text e.text
  | .experience => c.experienceFilter.map fun es => es.map fun e => .text e.text

/-- The fragment that compares the three texts of a vacancy with a pattern each. -/
def textFragment (slots : List Nat) : String :=
  "(" ++ " OR ".intercalate ((TextColumn.all.zip slots).map fun p => likeText p.1 p.2) ++ ")"

/-- The fragment that looks a column up in a list. -/
def listFragment (column : String) (slots : List Nat) : String :=
  column ++ " IN (" ++ ", ".intercalate (slots.map placeholder) ++ ")"

/-- The text of the fragment of a kind that has these placeholders. -/
def fragment (slots : List Nat) : FilterKind → String
  | .text => textFragment slots
  | .specialization => listFragment "v.specialization_id" slots
  | .salary => "v.salary_from >= " ++ ", ".intercalate (slots.map placeholder)
  | .employment => listFragment "v.employment" slots
  | .experience => listFragment "v.experience" slots

/-- The filter of a kind. -/
def filter? (c : Criteria) : FilterKind → Option Filter
  | .text => c.textFilter.map textFilterOf
  | .specialization => c.categoryFilter.map fun ids =>
    listFilterOf .specialization (ids.map .integer)
  | .salary => c.minValue.map salaryFilterOf
  | .employment => c.employmentFilter.map fun es =>
    listFilterOf .employment (es.map fun e => .text e.text)
  | .experience => c.experienceFilter.map fun es =>
    listFilterOf .experience (es.map fun e => .text e.text)

end FilterKind

theorem filterMap_cons_eq_toList {α β : Type} (f : α → Option β) (a : α) (rest : List α) :
    (a :: rest).filterMap f = (f a).toList ++ rest.filterMap f := by
  cases h : f a <;> simp [h]

theorem filters_eq_filterMap (c : Criteria) :
    c.filters = FilterKind.all.filterMap (FilterKind.filter? c) := by
  simp only [Criteria.filters, FilterKind.all, FilterKind.filter?, filterMap_cons_eq_toList,
    List.filterMap_nil, List.append_nil, List.append_assoc]

theorem patternOf_eq (text : String) : patternOf text = FilterKind.anywhere text := by
  simp [patternOf, FilterKind.anywhere, Text.containing, Text.lowercase, ← String.toList_inj]

/-- A filter binds the values of its kind, and its condition reads as the fragment of its kind with
as many placeholders as there are values. -/
theorem FilterKind.of_filter? {c : Criteria} {kind : FilterKind} {f : Filter}
    (h : kind.filter? c = some f) :
    kind.values? c = some f.arguments ∧
      ∀ first, (f.condition first).render =
        kind.fragment (List.range' first f.arguments.length) := by
  cases kind with
  | text =>
    obtain ⟨text, htext, rfl⟩ := Option.map_eq_some_iff.1 h
    refine ⟨?_, fun first => rfl⟩
    simp [values?, htext, textFilterOf, TextColumn.all, patternOf_eq, List.replicate]
  | specialization =>
    obtain ⟨ids, hids, rfl⟩ := Option.map_eq_some_iff.1 h
    exact ⟨by rw [values?, hids]; rfl, fun first => rfl⟩
  | salary =>
    obtain ⟨floor, hfloor, rfl⟩ := Option.map_eq_some_iff.1 h
    exact ⟨by rw [values?, hfloor]; rfl, fun first => rfl⟩
  | employment =>
    obtain ⟨es, hes, rfl⟩ := Option.map_eq_some_iff.1 h
    exact ⟨by rw [values?, hes]; rfl, fun first => rfl⟩
  | experience =>
    obtain ⟨es, hes, rfl⟩ := Option.map_eq_some_iff.1 h
    exact ⟨by rw [values?, hes]; rfl, fun first => rfl⟩

theorem slots_likeText (column : TextColumn) (slot : Nat) :
    slots (likeText column slot) = [slot] := by
  have hcolumn : '?' ∉ column.text.toList := by cases column <;> decide
  have hescape : Opens " ESCAPE '\\'".toList := ⟨' ', _, rfl, rfl⟩
  rw [likeText, slots_append hescape, String.append_assoc, String.append_assoc,
    slots_append_of_plain (by decide), slots_append_of_plain hcolumn,
    slots_append_of_plain (by decide), slots_placeholder, slots_of_plain (by decide)]
  rfl

theorem opens_likeText (column : TextColumn) (slot : Nat) :
    Opens (likeText column slot).toList := by
  simp [likeText, Opens]

theorem slots_placeholders (ss : List Nat) :
    slots (", ".intercalate (ss.map placeholder)) = ss := by
  have hopens : ∀ text ∈ ss.map placeholder, Opens text.toList := by
    intro text htext
    obtain ⟨n, -, rfl⟩ := List.mem_map.1 htext
    exact opens_placeholder n
  rw [slots_intercalate ⟨',', _, rfl, rfl⟩ (slots_of_plain (by decide)) hopens, List.flatMap_map]
  simp [slots_placeholder]

theorem slots_listFragment {column : String} (hcolumn : '?' ∉ column.toList) (ss : List Nat) :
    slots (FilterKind.listFragment column ss) = ss := by
  rw [FilterKind.listFragment, slots_append ⟨')', _, rfl, rfl⟩, String.append_assoc,
    slots_append_of_plain hcolumn, slots_append_of_plain (by decide), slots_placeholders,
    slots_of_plain (by decide), List.append_nil]

theorem slots_textFragment (a b c : Nat) :
    slots (FilterKind.textFragment [a, b, c]) = [a, b, c] := by
  have hopens : ∀ text ∈ (TextColumn.all.zip [a, b, c]).map (fun p => likeText p.1 p.2),
      Opens text.toList := by
    intro text htext
    obtain ⟨p, -, rfl⟩ := List.mem_map.1 htext
    exact opens_likeText p.1 p.2
  rw [FilterKind.textFragment, slots_append ⟨')', _, rfl, rfl⟩, slots_append_of_plain (by decide),
    slots_intercalate ⟨' ', _, rfl, rfl⟩ (slots_of_plain (by decide)) hopens, List.flatMap_map,
    slots_of_plain (by decide)]
  simp [slots_likeText, TextColumn.all]

/-- The placeholders of a fragment are those that it was given; a text filter has three. -/
theorem slots_fragment {kind : FilterKind} {ss : List Nat}
    (h : kind = .text → ss.length = 3) : slots (kind.fragment ss) = ss := by
  cases kind with
  | text =>
    match ss, h rfl with
    | [a, b, c], _ => exact slots_textFragment a b c
  | specialization => exact slots_listFragment (by decide) ss
  | salary =>
    show slots ("v.salary_from >= " ++ ", ".intercalate (ss.map placeholder)) = ss
    rw [slots_append_of_plain (by decide), slots_placeholders]
  | employment => exact slots_listFragment (by decide) ss
  | experience => exact slots_listFragment (by decide) ss

/-! ## Placed fragments -/

/-- A fragment reads as that of its kind, and its placeholders stand for the values of the filter,
in order. -/
structure Binds (c : Criteria) (arguments : List Argument) (kind : FilterKind)
    (fragment : String) : Prop where
  reads : fragment = kind.fragment (slots fragment)
  values : ∃ values, kind.values? c = some values ∧
    (slots fragment).map (argument? arguments) = values.map some

/-- Whether there is a filter of a kind. -/
def FilterKind.asked (c : Criteria) (kind : FilterKind) : Bool := (kind.values? c).isSome

theorem FilterKind.asked_of_filter? {c : Criteria} {kind : FilterKind}
    (h : kind.filter? c = none) : kind.asked c = false := by
  cases kind <;> rw [asked, Option.isSome_eq_false_iff, Option.isNone_iff_eq_none] <;>
    exact Option.map_eq_none_iff.2 (Option.map_eq_none_iff.1 h)

theorem map_argument?_range' (before values after : List Argument) :
    (List.range' (before.length + 1) values.length).map
      (argument? (before ++ values ++ after)) = values.map some := by
  apply List.ext_getElem
  · simp
  · intro i hi hi'
    have hvalue : i < values.length := by simpa using hi'
    rw [List.getElem_map, List.getElem_map, List.getElem_range', Nat.one_mul,
      argument?_append before values after hvalue, argument?, Nat.add_sub_cancel_left,
      List.getElem?_eq_getElem hvalue]

/-- A filter that is placed after some arguments binds its own. -/
theorem binds_of_filter? {c : Criteria} {kind : FilterKind} {f : Filter}
    (h : kind.filter? c = some f) (before after : List Argument) :
    Binds c (before ++ f.arguments ++ after) kind (f.condition (before.length + 1)).render ∧
      slots (f.condition (before.length + 1)).render =
        List.range' (before.length + 1) f.arguments.length := by
  obtain ⟨hvalues, hrender⟩ := FilterKind.of_filter? h
  have hslots : slots (f.condition (before.length + 1)).render =
      List.range' (before.length + 1) f.arguments.length := by
    rw [hrender]
    refine slots_fragment ?_
    rintro rfl
    obtain ⟨text, -, rfl⟩ := Option.map_eq_some_iff.1 h
    rfl
  refine ⟨⟨?_, f.arguments, hvalues, ?_⟩, hslots⟩
  · rw [hslots, hrender]
  · rw [hslots, map_argument?_range']

/-- The fragments of filters that are placed one after the other. -/
theorem binds_placeFilters (c : Criteria) (kinds : List FilterKind)
    (before after : List Argument) :
    let fs := kinds.filterMap (FilterKind.filter? c)
    let fragments := (placeFilters (before.length + 1) fs).map Condition.render
    List.Forall₂ (Binds c (before ++ fs.flatMap Filter.arguments ++ after))
        (kinds.filter (FilterKind.asked c)) fragments ∧
      fragments.flatMap slots =
        List.range' (before.length + 1) (fs.flatMap Filter.arguments).length := by
  induction kinds generalizing before with
  | nil => exact ⟨.nil, rfl⟩
  | cons kind rest ih =>
    cases hfilter : kind.filter? c with
    | none =>
      have hnone := FilterKind.asked_of_filter? hfilter
      rw [List.filterMap_cons_none hfilter, List.filter_cons_of_neg (by simp [hnone])]
      exact ih before
    | some f =>
      obtain ⟨hvalues, -⟩ := FilterKind.of_filter? hfilter
      have hasked : kind.asked c = true := by rw [FilterKind.asked, hvalues]; rfl
      obtain ⟨hrest, hslots⟩ := ih (before ++ f.arguments)
      obtain ⟨hbinds, hown⟩ := binds_of_filter? hfilter before
        ((rest.filterMap (FilterKind.filter? c)).flatMap Filter.arguments ++ after)
      rw [List.length_append, Nat.add_right_comm] at hrest hslots
      simp only [List.filterMap_cons_some hfilter, List.filter_cons_of_pos hasked, placeFilters,
        List.map_cons, List.flatMap_cons, List.append_assoc] at hrest hbinds ⊢
      refine ⟨.cons hbinds hrest, ?_⟩
      rw [hown, hslots, List.length_append, List.range'_append_1]

/-! ## Statements -/

theorem render_anyLike (first : Nat) :
    (Condition.anyLike first).render =
      "(" ++ likeText .title first ++ " OR " ++ likeText .specialization (first + 1) ++ " OR " ++
        likeText .company (first + 2) ++ ")" := by
  show "(" ++ " OR ".intercalate [likeText .title first, likeText .specialization (first + 1),
    likeText .company (first + 2)] ++ ")" = _
  rw [String.intercalate_cons_cons, String.intercalate_cons_cons, String.intercalate_singleton]
  simp only [String.append_assoc]

theorem render_among (column : ListColumn) (first count : Nat) :
    (Condition.among column first count).render =
      column.text ++ " IN (" ++ placeholders first count ++ ")" := rfl

theorem render_salaryAtLeast (slot : Nat) :
    (Condition.salaryAtLeast slot).render = "v.salary_from >= " ++ placeholder slot := rfl

theorem opens_render (condition : Condition) : Opens condition.render.toList := by
  cases condition with
  | anyLike first => simp [render_anyLike, Opens]
  | among column first count => cases column <;> simp [render_among, ListColumn.text, Opens]
  | salaryAtLeast slot => simp [render_salaryAtLeast, Opens]

theorem whereText_eq (conditions : List Condition) :
    whereText conditions =
      if conditions.map Condition.render = [] then ""
      else " WHERE " ++ " AND ".intercalate (conditions.map Condition.render) := by
  cases conditions <;> rfl

theorem slots_whereText (conditions : List Condition) :
    slots (whereText conditions) = (conditions.map Condition.render).flatMap slots := by
  have hopens : ∀ text ∈ conditions.map Condition.render, Opens text.toList := by
    intro text htext
    obtain ⟨condition, -, rfl⟩ := List.mem_map.1 htext
    exact opens_render condition
  rw [whereText_eq]
  split
  · rename_i hnone
    rw [hnone]
    rfl
  · rw [slots_append_of_plain (by decide),
      slots_intercalate ⟨' ', _, rfl, rfl⟩ (slots_of_plain (by decide)) hopens]

/-- The placeholders of a statement are those of its conditions, and then the two of the window. -/
theorem slots_render (s : Statement) :
    slots s.render =
      (s.conditions.map Condition.render).flatMap slots ++ [s.limitSlot, s.offsetSlot] := by
  have hselect : '?' ∉ selectText.toList := by
    delta selectText
    simp only [String.toList_append, List.mem_append, not_or]
    simp
  have hend : slots ";" = [] := slots_of_plain (by decide)
  have hoffset : slots " OFFSET " = [] := slots_of_plain (by decide)
  have horder : slots " ORDER BY v.updated_at DESC, v.id DESC LIMIT " = [] :=
    slots_of_plain (by decide)
  rw [Statement.render, slots_append ⟨';', _, rfl, rfl⟩, slots_append (opens_placeholder _),
    slots_append ⟨' ', _, rfl, rfl⟩, slots_append (opens_placeholder _),
    slots_append ⟨' ', _, rfl, rfl⟩, slots_append_of_plain hselect, slots_whereText, hend, hoffset,
    horder, slots_placeholder, slots_placeholder]
  simp

/-- The placeholders of a composed statement, read from left to right, are `?1` up to the number of
its arguments. There is one fragment for each filter that is asked for, in their order, and no
`WHERE` without any; its placeholders stand for the values of its own filter. The last two stand for
the limit and the offset. -/
theorem compose_lines_up (c : Criteria) :
    let q := compose c
    let n := q.arguments.length
    slots q.statement.render = List.range' 1 n ∧
      (∃ fragments : List String,
        q.statement.render =
            selectText ++
              (if fragments = [] then "" else " WHERE " ++ " AND ".intercalate fragments) ++
              " ORDER BY v.updated_at DESC, v.id DESC LIMIT " ++ placeholder (n - 1) ++
              " OFFSET " ++ placeholder n ++ ";" ∧
          List.Forall₂ (Binds c q.arguments) (FilterKind.all.filter (FilterKind.asked c))
            fragments) ∧
      argument? q.arguments (n - 1) = some (.integer c.limit) ∧
      argument? q.arguments n = some (.integer c.offset) := by
  intro q n
  obtain ⟨hbinds, hslots⟩ := binds_placeFilters c FilterKind.all []
    [.integer c.limit, .integer c.offset]
  simp only [← filters_eq_filterMap] at hbinds hslots
  have hn : n = (c.filters.flatMap Filter.arguments).length + 2 := by
    simp only [n, q, compose, List.length_append]
    rfl
  have harguments : q.arguments =
      c.filters.flatMap Filter.arguments ++ [.integer c.limit, .integer c.offset] := rfl
  have hlimit : q.statement.limitSlot = n - 1 := by rw [hn]; rfl
  have hoffset : q.statement.offsetSlot = n := hn.symm
  refine ⟨?_, ⟨q.statement.conditions.map Condition.render, ?_, hbinds⟩, ?_, ?_⟩
  · have hwindow : [n - 1, n] =
        List.range' (1 + (c.filters.flatMap Filter.arguments).length) 2 := by
      rw [hn, Nat.add_comm 1]
      rfl
    rw [slots_render, hlimit, hoffset, hwindow]
    refine (congrArg (· ++ _) hslots).trans ?_
    rw [List.length_nil, Nat.zero_add, List.range'_append_1, ← hn]
  · rw [← whereText_eq, ← hlimit, ← hoffset]
    rfl
  · rw [harguments, argument?, hn]
    simp
  · rw [harguments, argument?, hn]
    simp

end JobBoard.Search
