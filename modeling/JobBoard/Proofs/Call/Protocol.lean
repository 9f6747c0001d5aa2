import JobBoard.Call.Resolver
import Mathlib.Logic.Relation

/-!
# The protocol step by step

Finding or creating names as a machine that makes one call of the store in each step. It ends with
the outcome and in the state of `NameStore.resolveEach` (`reaches_resolveEach`), so what every step
preserves holds at the end of the protocol, and steps of several machines can be interleaved.
-/

set_option autoImplicit false

namespace JobBoard

open Observe

/-- How far a list of names has come: the entries so far, the stage of the current name, and the
names that are left; or the outcome. -/
inductive Progress where
  | working (entries : List Entry) (stage : Stage) (name : String) (rest : List String)
  | ended (outcome : Except BoardError (List Entry))

namespace Progress

/-- Turns to the next name, if there is one. -/
def next (entries : List Entry) : List String → Progress
  | [] => .ended (.ok entries)
  | name :: rest => .working entries .find name rest

/-- The entries that are certain. -/
def entries : Progress → List Entry
  | .working entries _ _ _ => entries
  | .ended (.ok entries) => entries
  | .ended (.error _) => []

/-- The progress is one on a given list of names. -/
def Covers (names : List String) : Progress → Prop
  | .working entries stage name rest =>
    entries.map Entry.name ++ name :: rest = names ∧ ∀ outcome, stage ≠ .finished outcome
  | .ended (.ok entries) => entries.map Entry.name = names
  | .ended (.error _) => True

theorem covers_next {names : List String} {entries : List Entry} {rest : List String}
    (h : entries.map Entry.name ++ rest = names) : (next entries rest).Covers names := by
  cases rest with
  | nil => simpa [next, Covers] using h
  | cons name rest => exact ⟨h, by simp⟩

@[simp] theorem entries_next (entries : List Entry) (rest : List String) :
    (next entries rest).entries = entries := by
  cases rest <;> rfl

end Progress

/-- After an insertion the protocol is at its end or looks once more. -/
theorem Stage.afterInsert_cases (d : Dictionary) (reply : Except StoreError Int) :
    (∃ outcome, Stage.afterInsert d reply = .finished outcome) ∨
      (Stage.afterInsert d reply = .reread ∧
        ∃ e, reply = .error e ∧ e.writeFailure = .uniqueViolation) := by
  cases reply with
  | ok id => exact .inl ⟨_, rfl⟩
  | error e =>
    by_cases hunique : e.writeFailure = .uniqueViolation
    · exact .inr ⟨by simp [Stage.afterInsert, hunique], e, rfl, hunique⟩
    · exact .inl ⟨_, by simp only [Stage.afterInsert, if_neg hunique]; rfl⟩

namespace NameStore

variable {σ : Type} (S : NameStore σ) (d : Dictionary)

/-- The call that a stage makes, and the stage that its reply leads to. -/
def advance (name : String) : Stage → σ → Stage × σ
  | .find, s =>
    let (reply, s) := S.find d name (S.tell (.called .resolve) s)
    (Stage.afterFind d reply, s)
  | .insert, s =>
    let (reply, s) := S.insert d name s
    (Stage.afterInsert d reply, s)
  | .reread, s =>
    let (reply, s) := S.find d name (S.tell (.retried d) s)
    (.finished (Stage.afterReread d reply), s)
  | .finished outcome, s => (.finished outcome, s)

/-- What a stage means for the whole list. -/
def settle (entries : List Entry) (name : String) (rest : List String) :
    Stage × σ → Progress × σ
  | (.finished (.ok id), s) => (.next (entries ++ [⟨id, name⟩]) rest, s)
  | (.finished (.error e), s) => (.ended (.error e), S.tell (.failed .resolve e) s)
  | (stage, s) => (.working entries stage name rest, s)

/-- One step of the protocol. -/
def step : Progress × σ → Progress × σ
  | (.working entries stage name rest, s) => S.settle entries name rest (S.advance d name stage s)
  | (.ended outcome, s) => (.ended outcome, s)

/-- Steps of the protocol, one after the other. -/
abbrev Reaches : Progress × σ → Progress × σ → Prop :=
  Relation.ReflTransGen fun a b => S.step d a = b

/-- What every step preserves, the protocol preserves. -/
theorem Reaches.preserves {S : NameStore σ} {d : Dictionary} {P : Progress × σ → Prop}
    (hstep : ∀ a, P a → P (S.step d a)) {a b : Progress × σ} (h : S.Reaches d a b) (ha : P a) :
    P b := by
  induction h with
  | refl => exact ha
  | tail _ hbc ih => exact hbc ▸ hstep _ ih

/-- A step stays on the list of names. -/
theorem covers_step {names : List String} {a : Progress × σ} (h : a.1.Covers names) :
    (S.step d a).1.Covers names := by
  obtain ⟨p, s⟩ := a
  cases p with
  | ended outcome => exact h
  | working entries stage name rest =>
    obtain ⟨hnames, -⟩ := h
    show (S.settle entries name rest (S.advance d name stage s)).1.Covers names
    rcases S.advance d name stage s with ⟨next, s'⟩
    cases next with
    | finished outcome =>
      cases outcome with
      | error e => trivial
      | ok id =>
        refine Progress.covers_next ?_
        rw [← hnames]
        simp
    | find => exact ⟨hnames, by simp⟩
    | insert => exact ⟨hnames, by simp⟩
    | reread => exact ⟨hnames, by simp⟩

/-! ## The machine and the function -/

variable (entries : List Entry) (name : String) (rest : List String)

theorem reaches_create (s : σ) :
    S.Reaches d (.working entries .insert name rest, s)
      (S.settle entries name rest
        (.finished (S.create d name s).1, (S.create d name s).2)) := by
  unfold create
  rcases hinsert : S.insert d name s with ⟨reply, s'⟩
  have hadvance : S.advance d name .insert s = (Stage.afterInsert d reply, s') := by
    simp only [advance, hinsert]
  rcases Stage.afterInsert_cases d reply with ⟨outcome, hafter⟩ | ⟨hafter, -⟩
  · simp only [hafter]
    refine .single ?_
    simp only [step, hadvance, hafter]
  · simp only [hafter]
    refine .head (b := (.working entries .reread name rest, s')) ?_ (.single rfl)
    simp only [step, hadvance, hafter, settle]

theorem reaches_findOrCreate (s : σ) :
    S.Reaches d (.working entries .find name rest, s)
      (S.settle entries name rest
        (.finished (S.findOrCreate d name (S.tell (.called .resolve) s)).1,
          (S.findOrCreate d name (S.tell (.called .resolve) s)).2)) := by
  unfold findOrCreate
  rcases hfind : S.find d name (S.tell (.called .resolve) s) with ⟨reply, s'⟩
  have hadvance : S.advance d name .find s = (Stage.afterFind d reply, s') := by
    simp only [advance, hfind]
  have hfinished : ∀ outcome, Stage.afterFind d reply = .finished outcome →
      S.Reaches d (.working entries .find name rest, s)
        (S.settle entries name rest (.finished outcome, s')) := by
    intro outcome hafter
    refine .single ?_
    simp only [step, hadvance, hafter]
  rcases reply with e | _ | id
  · exact hfinished _ rfl
  · refine .head (b := (.working entries .insert name rest, s')) ?_
      (S.reaches_create d entries name rest s')
    simp only [step, hadvance, Stage.afterFind, settle]
  · exact hfinished _ rfl

/-- The machine on a list of names ends as the function does. -/
theorem reaches_resolveEach (names : List String) (s : σ) :
    ∃ outcome, S.Reaches d (.next entries names, s) (.ended outcome, (S.resolveEach d names s).2) ∧
      outcome.map (List.map Entry.id) =
        (S.resolveEach d names s).1.map (entries.map Entry.id ++ ·) := by
  induction names generalizing entries s with
  | nil => exact ⟨.ok entries, .refl, by simp [resolveEach, Except.map]⟩
  | cons name rest ih =>
    have hfirst := S.reaches_findOrCreate d entries name rest s
    unfold resolveEach resolve observed
    rcases hr : S.findOrCreate d name (S.tell (.called .resolve) s) with ⟨e | id, s'⟩
    · rw [hr] at hfirst
      exact ⟨.error e, hfirst, rfl⟩
    -- the first name is done, and its entry stands before those of the rest
    · obtain ⟨outcome, hrest, houtcome⟩ := ih (entries ++ [⟨id, name⟩]) s'
      rw [hr] at hfirst
      rcases heach : S.resolveEach d rest s' with ⟨e | ids, s''⟩
      · simp only [heach] at hrest houtcome ⊢
        exact ⟨outcome, hfirst.trans hrest, houtcome⟩
      · simp only [heach] at hrest houtcome ⊢
        refine ⟨outcome, hfirst.trans hrest, ?_⟩
        rw [houtcome]
        simp [Except.map]

/-- What telling, looking up and inserting keep, the protocol keeps. -/
theorem resolveEach_keeps {P : σ → Prop} (htell : ∀ e s, P s → P (S.tell e s))
    (hfind : ∀ name s, P s → P (S.find d name s).2)
    (hinsert : ∀ name s, P s → P (S.insert d name s).2) (names : List String) {s : σ} (hs : P s) :
    P (S.resolveEach d names s).2 := by
  obtain ⟨outcome, hreaches, -⟩ := S.reaches_resolveEach d [] names s
  refine hreaches.preserves (P := fun a => P a.2) ?_ hs
  rintro ⟨p, s⟩ h
  cases p with
  | ended outcome => exact h
  | working entries stage name rest =>
    have hadvance : P (S.advance d name stage s).2 := by
      cases stage with
      | find => exact hfind _ _ (htell _ _ h)
      | insert => exact hinsert _ _ h
      | reread => exact hfind _ _ (htell _ _ h)
      | finished outcome => exact h
    show P (S.settle entries name rest (S.advance d name stage s)).2
    generalize S.advance d name stage s = r at hadvance ⊢
    obtain ⟨after, s'⟩ := r
    rcases after with _ | _ | _ | e | id
    · exact hadvance
    · exact hadvance
    · exact hadvance
    · exact htell _ _ hadvance
    · exact hadvance

/-- A name that is not found is inserted, and that is the end of it unless it is a clash. -/
theorem resolve_of_inserted {s s₁ s₂ : σ} {reply : Except StoreError Int}
    {outcome : Except BoardError Int}
    (hfind : S.find d name (S.tell (.called .resolve) s) = (.ok none, s₁))
    (hinsert : S.insert d name s₁ = (reply, s₂))
    (hafter : Stage.afterInsert d reply = .finished outcome) :
    S.resolve d name s = (outcome,
      match outcome with
      | .ok _ => s₂
      | .error e => S.tell (.failed .resolve e) s₂) := by
  have hrun : S.findOrCreate d name (S.tell (.called .resolve) s) = (outcome, s₂) := by
    simp only [findOrCreate, hfind, Stage.afterFind, create, hinsert, hafter]
  rw [resolve, observed, hrun]
  cases outcome <;> rfl

theorem resolveAll_of_ne_nil {names : List String} (h : names ≠ []) (s : σ) :
    S.resolveAll d names s = S.resolveEach d names (S.tell (.called .resolveAll) s) := by
  cases names with
  | nil => exact absurd rfl h
  | cons => rfl

/-- There is an id for each name. -/
theorem length_of_resolveEach {names : List String} {s : σ} {ids : List Int}
    (h : (S.resolveEach d names s).1 = .ok ids) : ids.length = names.length := by
  induction names generalizing s ids with
  | nil =>
    obtain rfl := Except.ok.inj h
    rfl
  | cons name rest ih =>
    rw [resolveEach] at h
    rcases hfirst : S.resolve d name s with ⟨e | id, s'⟩ <;> simp only [hfirst] at h
    · exact nomatch h
    · rcases hrest : S.resolveEach d rest s' with ⟨e | ids', s''⟩
      · simp [hrest] at h
      · obtain rfl : id :: ids' = ids := by simpa [hrest] using h
        exact congrArg (· + 1) (ih (congrArg Prod.fst hrest))

/-- A list that follows one that was resolved goes on from there. -/
theorem resolveEach_append {before : List String} {s s' : σ} {ids : List Int}
    (h : S.resolveEach d before s = (.ok ids, s')) :
    S.resolveEach d (before ++ rest) s =
      ((S.resolveEach d rest s').1.map (ids ++ ·), (S.resolveEach d rest s').2) := by
  induction before generalizing s ids with
  | nil =>
    obtain ⟨rfl, rfl⟩ : ids = [] ∧ s = s' := by simpa [resolveEach, eq_comm] using h
    rw [List.nil_append]
    rcases S.resolveEach d rest s with ⟨e | ids, s''⟩ <;> rfl
  | cons name before ih =>
    rw [resolveEach] at h
    rcases hfirst : S.resolve d name s with ⟨e | id, s₁⟩
    · simp [hfirst] at h
    rcases hbefore : S.resolveEach d before s₁ with ⟨e | ids', s₂⟩
    · simp [hfirst, hbefore] at h
    obtain ⟨rfl, rfl⟩ : id :: ids' = ids ∧ s₂ = s' := by simpa [hfirst, hbefore] using h
    rw [List.cons_append, resolveEach]
    simp only [hfirst, ih hbefore]
    rcases S.resolveEach d rest s₂ with ⟨e | ids, s''⟩ <;> rfl

theorem resolveEach_singleton (s : σ) :
    S.resolveEach d [name] s =
      ((S.resolve d name s).1.map fun id => [id], (S.resolve d name s).2) := by
  unfold resolveEach
  rcases S.resolve d name s with ⟨e | id, s'⟩ <;> rfl

end NameStore

end JobBoard
