import JobBoard.Host.Path
import Mathlib.Data.List.Basic
import Mathlib.Data.List.TakeWhile

/-!
# Spellings of a path

An absolute path is a row of segments with a separator before each of them. Empty segments and
single dots stand for nothing, all others are components (`Spells`). So a path has one list of
components, and two absolute paths are the same exactly if they spell the same components
(`samePath_iff`).
-/

set_option autoImplicit false

namespace JobBoard.Host

/-- The name of a step on the way: not empty, no single dot, and without a separator. -/
structure IsComponent (name : List Char) : Prop where
  nonempty : name ≠ []
  notDot : name ≠ ['.']
  solid : '/' ∉ name

/-- A path spells its components. Between them there may be any number of separators and of single
dots, and after the last one too. -/
inductive Spells : List Char → List (List Char) → Prop where
  | done : Spells [] []
  | separator {path : List Char} {names : List (List Char)} :
      Spells path names → Spells ('/' :: path) names
  | dot {path : List Char} {names : List (List Char)} :
      Spells path names → Spells ('/' :: '.' :: path) names
  | component {name path : List Char} {names : List (List Char)} :
      IsComponent name → Spells path names → Spells ('/' :: (name ++ path)) (name :: names)

/-- A rest of an absolute path: nothing, or something that goes on with a separator. -/
def Opens (path : List Char) : Prop := ∀ c ∈ path.head?, c = '/'

theorem Spells.opens {path : List Char} {names : List (List Char)} (h : Spells path names) :
    Opens path := by
  cases h with
  | done => exact nofun
  | separator _ => exact fun c hc => (Option.some.inj hc).symm
  | dot _ => exact fun c hc => (Option.some.inj hc).symm
  | component _ _ => exact fun c hc => (Option.some.inj hc).symm

/-- Whether a segment is a component. -/
def isKept (segment : List Char) : Bool := decide (segment ≠ [] ∧ segment ≠ ['.'])

/-- The segments of a path that are components. -/
def kept (path : List Char) : List (List Char) := (path.splitOn '/').filter isKept

theorem isKept_iff (segment : List Char) :
    isKept segment = (String.ofList segment != "" && String.ofList segment != ".") := by
  have hempty : String.ofList segment = "" ↔ segment = [] := String.ofList_eq_empty_iff
  have hdot : String.ofList segment = "." ↔ segment = ['.'] := String.ofList_inj
  rw [Bool.eq_iff_iff]
  simp only [isKept, decide_eq_true_eq, Bool.and_eq_true, bne_iff_ne, ne_eq, hempty, hdot]

theorem map_toList_components (path : String) :
    (components path).map String.toList = kept path.toList := by
  have hkept : ∀ segment, ((String.ofList segment != ".") && (String.ofList segment != ""))
      = isKept segment := fun segment => by rw [isKept_iff, Bool.and_comm]
  rw [components, steps, List.filter_filter, List.filter_map, List.map_map, kept]
  simp only [Function.comp_def, String.toList_ofList, List.map_id', hkept]

theorem kept_append_separator (path rest : List Char) :
    kept (path ++ '/' :: rest) = kept path ++ kept rest := by
  have hsplit : (path ++ '/' :: rest).splitOn '/' = path.splitOn '/' ++ rest.splitOn '/' :=
    List.splitOnP_append_cons path rest (beq_self_eq_true '/')
  rw [kept, hsplit, List.filter_append]
  rfl

theorem kept_append {segment path : List Char} (h : Opens path) :
    kept (segment ++ path) = kept segment ++ kept path := by
  cases path with
  | nil => simp [kept, List.splitOn, isKept]
  | cons c rest =>
    obtain rfl : c = '/' := h c rfl
    rw [kept_append_separator, ← List.nil_append ('/' :: rest), kept_append_separator]
    rfl

theorem kept_of_solid {segment : List Char} (h : '/' ∉ segment) :
    kept segment = if isKept segment then [segment] else [] := by
  have hsplit : segment.splitOn '/' = [segment] := by
    refine List.splitOnP_eq_singleton fun c hc => ?_
    rw [beq_eq_false_iff_ne]
    rintro rfl
    exact h hc
  rw [kept, hsplit, List.filter_cons, List.filter_nil]

/-- A path spells no other components than its own. -/
theorem Spells.kept_eq {path : List Char} {names : List (List Char)} (h : Spells path names) :
    kept path = names := by
  induction h with
  | done => rfl
  | @separator path names _ ih =>
    rw [← List.nil_append ('/' :: path), kept_append_separator, ih]
    rfl
  | @dot path names h ih =>
    have hdot : kept (['/', '.'] ++ path) = kept ['/', '.'] ++ kept path := kept_append h.opens
    rw [ih] at hdot
    exact hdot
  | @component name path names hname h ih =>
    have hkept : isKept name = true := decide_eq_true ⟨hname.nonempty, hname.notDot⟩
    rw [← List.nil_append ('/' :: (name ++ path)), kept_append_separator, kept_append h.opens, ih,
      kept_of_solid hname.solid, if_pos hkept]
    rfl

/-- Every absolute path spells something, by induction on its length: what stands between the first
two separators is nothing, a dot or a component. -/
theorem exists_spells {path : List Char} (h : Opens path) : ∃ names, Spells path names := by
  induction hlength : path.length using Nat.strong_induction_on generalizing path with
  | _ n ih =>
    cases path with
    | nil => exact ⟨[], .done⟩
    | cons c text =>
      obtain rfl : c = '/' := h c rfl
      have hopens : Opens (text.dropWhile (· != '/')) := by
        intro c hc
        have hstop := List.head?_dropWhile_not (· != '/') text
        rw [Option.mem_def.mp hc] at hstop
        simpa using hstop
      have hsolid : '/' ∉ text.takeWhile (· != '/') := by
        intro hmem
        have := List.mem_takeWhile_imp hmem
        simp at this
      have hshorter : (text.dropWhile (· != '/')).length < n := by
        rw [← hlength]
        exact Nat.lt_succ_of_le (List.length_dropWhile_le _ _)
      obtain ⟨names, hnames⟩ := ih _ hshorter hopens rfl
      rw [← List.takeWhile_append_dropWhile (p := (· != '/')) (l := text)]
      by_cases hempty : text.takeWhile (· != '/') = []
      · rw [hempty]
        exact ⟨names, .separator hnames⟩
      by_cases hdot : text.takeWhile (· != '/') = ['.']
      · rw [hdot]
        exact ⟨names, .dot hnames⟩
      exact ⟨_ :: names, .component ⟨hempty, hdot, hsolid⟩ hnames⟩

theorem opens_of_isAbsolute {path : String} (h : isAbsolute path = true) : Opens path.toList := by
  intro c hc
  have hfirst : path.toList.head? = some '/' := beq_iff_eq.mp h
  rw [hfirst] at hc
  exact (Option.some.inj hc).symm

/-- Two absolute paths are the same exactly if they spell the same components. -/
theorem samePath_iff {a b : String} (ha : isAbsolute a = true) (hb : isAbsolute b = true) :
    samePath a b = true ↔ ∃ names, Spells a.toList names ∧ Spells b.toList names := by
  have hinj : Function.Injective (List.map String.toList) :=
    List.map_injective_iff.mpr fun _ _ h => String.toList_inj.mp h
  have hkept : samePath a b = true ↔ kept a.toList = kept b.toList := by
    rw [samePath, beq_iff_eq, ← hinj.eq_iff, map_toList_components, map_toList_components]
  rw [hkept]
  constructor
  · intro heq
    obtain ⟨names, hnames⟩ := exists_spells (opens_of_isAbsolute ha)
    obtain ⟨others, hothers⟩ := exists_spells (opens_of_isAbsolute hb)
    rw [hnames.kept_eq, hothers.kept_eq] at heq
    exact ⟨names, hnames, heq ▸ hothers⟩
  · rintro ⟨names, hnames, hothers⟩
    rw [hnames.kept_eq, hothers.kept_eq]

end JobBoard.Host
