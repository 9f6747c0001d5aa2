import JobBoard.Cancel.TokenTable
import Mathlib.Data.List.Induction
import Mathlib.Logic.Relation

/-!
# Families of tokens

What a token says follows from the steps that were taken, without a look at the table. Tokens are of
one family if cloning connects them, in whichever direction and over however many tokens (`Kin`).
The table keeps this by a number that all tokens of a family share, the position of the one that was
created (`exists_origin`), so tokens of one family are the same entry of the table
(`kin_iff_of_tokens`). The main theorem is `reason_of_history`.
-/

set_option autoImplicit false

namespace JobBoard.Cancel

/-! ## Histories -/

/-- Whether a step makes a token where there are so many. There has to be a token to be cloned. -/
def TokenStep.makes (tokens : Nat) : TokenStep → Bool
  | .create .. => true
  | .clone i => i < tokens
  | .cancel _ | .wait _ => false

/-- How long a step takes. -/
def TokenStep.duration : TokenStep → Nat
  | .wait ticks => ticks
  | .create .. | .clone _ | .cancel _ => 0

/-- The number of tokens that steps make. -/
def made (steps : List TokenStep) : Nat :=
  steps.foldl (fun tokens step => if step.makes tokens then tokens + 1 else tokens) 0

/-- How long steps take. -/
def elapsed : List TokenStep → Nat
  | [] => 0
  | step :: rest => step.duration + elapsed rest

/-- A step was taken when there were so many tokens. A token that it made has this number. -/
def Taken (steps : List TokenStep) (step : TokenStep) (tokens : Nat) : Prop :=
  ∃ before after, steps = before ++ step :: after ∧ made before = tokens

/-- A token was made as a clone of another. -/
def Clones (steps : List TokenStep) (i j : Nat) : Prop := i < j ∧ Taken steps (.clone i) j

/-- Cloning connects two tokens: each is an ancestor of the other, or a descendant, or they are
connected to a third. -/
def Kin (steps : List TokenStep) : Nat → Nat → Prop := Relation.EqvGen (Clones steps)

/-- A token was cancelled, by a step of its own or when it was created. -/
def Struck (steps : List TokenStep) (i : Nat) : Prop :=
  (∃ tokens, i < tokens ∧ Taken steps (.cancel i) tokens) ∨
    ∃ deadline, Taken steps (.create deadline true) i

/-- Some token of the family was cancelled. -/
def FamilyStruck (steps : List TokenStep) (i : Nat) : Prop := ∃ j, Kin steps j i ∧ Struck steps j

/-- The token that the family goes back to was created with a deadline. -/
def HasDeadline (steps : List TokenStep) (i deadline : Nat) : Prop :=
  ∃ j cancelled, Kin steps j i ∧ Taken steps (.create (some deadline) cancelled) j

theorem made_append_singleton (steps : List TokenStep) (step : TokenStep) :
    made (steps ++ [step]) = if step.makes (made steps) then made steps + 1 else made steps := by
  rw [made, List.foldl_append]
  rfl

theorem taken_append_singleton {steps : List TokenStep} {s step : TokenStep} {tokens : Nat} :
    Taken (steps ++ [s]) step tokens ↔
      Taken steps step tokens ∨ step = s ∧ tokens = made steps := by
  constructor
  · rintro ⟨before, after, hsteps, rfl⟩
    rcases List.eq_nil_or_concat after with rfl | ⟨after, last, rfl⟩
    · obtain ⟨rfl, hstep⟩ := List.append_inj' hsteps rfl
      exact .inr ⟨(List.singleton_inj.1 hstep).symm, rfl⟩
    · have hshift : steps ++ [s] = (before ++ step :: after) ++ [last] := by simpa using hsteps
      exact .inl ⟨before, after, (List.append_inj' hshift rfl).1, rfl⟩
  · rintro (⟨before, after, rfl, rfl⟩ | ⟨rfl, rfl⟩)
    · exact ⟨before, after ++ [s], by simp, rfl⟩
    · exact ⟨steps, [], rfl, rfl⟩

theorem Taken.append {steps : List TokenStep} {step : TokenStep} {tokens : Nat}
    (h : Taken steps step tokens) (more : List TokenStep) : Taken (steps ++ more) step tokens := by
  obtain ⟨before, after, rfl, hmade⟩ := h
  exact ⟨before, after ++ more, by simp, hmade⟩

/-- Kinship outlasts further steps. -/
theorem Kin.append {steps : List TokenStep} {i j : Nat} (h : Kin steps i j)
    (more : List TokenStep) : Kin (steps ++ more) i j :=
  Relation.EqvGen.mono (fun _ _ hclones => ⟨hclones.1, hclones.2.append more⟩) _ _ h

theorem struck_append_singleton {steps : List TokenStep} {s : TokenStep} {i : Nat} :
    Struck (steps ++ [s]) i ↔ Struck steps i ∨ (s = .cancel i ∧ i < made steps) ∨
      ∃ deadline, s = .create deadline true ∧ i = made steps := by
  simp only [Struck, taken_append_singleton]
  constructor
  · rintro (⟨tokens, hi, h | ⟨rfl, rfl⟩⟩ | ⟨deadline, h | ⟨rfl, rfl⟩⟩)
    · exact .inl (.inl ⟨tokens, hi, h⟩)
    · exact .inr (.inl ⟨rfl, hi⟩)
    · exact .inl (.inr ⟨deadline, h⟩)
    · exact .inr (.inr ⟨deadline, rfl, rfl⟩)
  · rintro ((⟨tokens, hi, h⟩ | ⟨deadline, h⟩) | ⟨rfl, hi⟩ | ⟨deadline, rfl, rfl⟩)
    · exact .inl ⟨tokens, hi, .inl h⟩
    · exact .inr ⟨deadline, .inl h⟩
    · exact .inl ⟨made steps, hi, .inr ⟨rfl, rfl⟩⟩
    · exact .inr ⟨deadline, .inr ⟨rfl, rfl⟩⟩

namespace TokenTable

/-! ## What a step does -/

/-- A step that makes a token puts it at the end; no other step touches the tokens. -/
theorem tokens_step_cases (t : TokenTable) (s : TokenStep) :
    (s.makes t.tokens.length = false ∧ (t.step s).tokens = t.tokens) ∨
      (s.makes t.tokens.length = true ∧ ∃ k, (t.step s).tokens = t.tokens ++ [k] ∧
        ((∃ deadline cancelled, s = .create deadline cancelled ∧
            k = ⟨t.tokens.length, deadline⟩) ∨
          ∃ i, s = .clone i ∧ t.tokens[i]? = some k)) := by
  cases s with
  | create deadline cancelled =>
    exact .inr ⟨rfl, _, rfl, .inl ⟨deadline, cancelled, rfl, rfl⟩⟩
  | clone i =>
    cases hi : t.tokens[i]? with
    | none =>
      have hlen : ¬i < t.tokens.length := Nat.not_lt.2 (List.getElem?_eq_none_iff.1 hi)
      exact .inl ⟨decide_eq_false hlen, by simp only [step, hi]⟩
    | some k =>
      have hlen : i < t.tokens.length := (List.getElem?_eq_some_iff.1 hi).1
      exact .inr ⟨decide_eq_true hlen, k, by simp only [step, hi], .inr ⟨i, rfl, hi⟩⟩
  | cancel i =>
    refine .inl ⟨rfl, ?_⟩
    cases hi : t.tokens[i]? <;> simp only [step, hi]
  | wait ticks => exact .inl ⟨rfl, rfl⟩

/-- A flag goes up with the creation of a cancelled token, or when a token of its family is
cancelled. -/
theorem mem_flagged_step {t : TokenTable} {s : TokenStep} {f : Nat} :
    f ∈ (t.step s).flagged ↔ f ∈ t.flagged ∨
      (∃ i k, s = .cancel i ∧ t.tokens[i]? = some k ∧ k.family = f) ∨
        ∃ deadline, s = .create deadline true ∧ f = t.tokens.length := by
  cases s with
  | create deadline cancelled =>
    cases cancelled <;> simp [step, or_comm]
  | clone i => cases hi : t.tokens[i]? <;> simp [step, hi]
  | cancel i => cases hi : t.tokens[i]? <;> simp [step, hi, or_comm, eq_comm]
  | wait ticks => simp [step]

theorem now_step (t : TokenTable) (s : TokenStep) : (t.step s).now = t.now + s.duration := by
  cases s with
  | create deadline cancelled => rfl
  | clone i => cases hi : t.tokens[i]? <;> simp [step, hi, TokenStep.duration]
  | cancel i => cases hi : t.tokens[i]? <;> simp [step, hi, TokenStep.duration]
  | wait ticks => rfl

theorem prefix_tokens_step (t : TokenTable) (s : TokenStep) : t.tokens <+: (t.step s).tokens := by
  rcases t.tokens_step_cases s with ⟨-, h⟩ | ⟨-, k, h, -⟩
  · exact h ▸ List.prefix_rfl
  · exact ⟨[k], h.symm⟩

theorem step_cancel_of_token {t : TokenTable} {i : Nat} {k : Token} (h : t.tokens[i]? = some k) :
    t.step (.cancel i) = ⟨t.tokens, k.family :: t.flagged, t.now⟩ := by
  simp only [step, h]

/-- Tokens that are added later do not change those there are. -/
theorem getElem?_of_longer {tokens later : List Token} (h : tokens <+: later) {i : Nat} {k : Token}
    (hi : tokens[i]? = some k) : later[i]? = some k := by
  obtain ⟨hlt, rfl⟩ := List.getElem?_eq_some_iff.1 hi
  exact List.prefix_iff_getElem?.1 h i hlt

/-! ## What a run does -/

theorem run_append (t : TokenTable) (steps more : List TokenStep) :
    t.run (steps ++ more) = (t.run steps).run more :=
  List.foldl_append

theorem run_append_singleton (t : TokenTable) (steps : List TokenStep) (s : TokenStep) :
    t.run (steps ++ [s]) = (t.run steps).step s :=
  t.run_append steps [s]

theorem prefix_tokens_run (t : TokenTable) (steps : List TokenStep) :
    t.tokens <+: (t.run steps).tokens := by
  induction steps generalizing t with
  | nil => exact List.prefix_refl t.tokens
  | cons s steps ih => exact (t.prefix_tokens_step s).trans (ih (t.step s))

theorem flagged_run_subset (t : TokenTable) (steps : List TokenStep) :
    t.flagged ⊆ (t.run steps).flagged := by
  induction steps generalizing t with
  | nil => exact List.Subset.refl t.flagged
  | cons s steps ih => exact fun f hf => ih (t.step s) (mem_flagged_step.2 (.inl hf))

theorem now_run (t : TokenTable) (steps : List TokenStep) :
    (t.run steps).now = t.now + elapsed steps := by
  induction steps generalizing t with
  | nil => rfl
  | cons s steps ih =>
    show ((t.step s).run steps).now = t.now + elapsed (s :: steps)
    rw [ih, now_step, elapsed, Nat.add_assoc]

variable (start : Nat) (steps : List TokenStep)

theorem length_tokens_run : (run { now := start } steps).tokens.length = made steps := by
  induction steps using List.reverseRecOn with
  | nil => rfl
  | append_singleton steps s ih =>
    rw [run_append_singleton, made_append_singleton, ← ih]
    rcases (run { now := start } steps).tokens_step_cases s with ⟨hmakes, h⟩ | ⟨hmakes, k, h, -⟩
    · rw [h, hmakes]
      rfl
    · rw [h, hmakes, List.length_append]
      rfl

variable {steps}

/-- A step that was taken was taken on the table of the steps before it. -/
theorem exists_of_taken {s : TokenStep} {tokens : Nat} (h : Taken steps s tokens) :
    ∃ t : TokenTable, t.tokens.length = tokens ∧
      (t.step s).tokens <+: (run { now := start } steps).tokens := by
  obtain ⟨before, after, rfl, rfl⟩ := h
  refine ⟨run { now := start } before, length_tokens_run start before, ?_⟩
  rw [run_append]
  exact prefix_tokens_run _ after

theorem token_of_created {deadline : Option Nat} {cancelled : Bool} {i : Nat}
    (h : Taken steps (.create deadline cancelled) i) :
    (run { now := start } steps).tokens[i]? = some ⟨i, deadline⟩ := by
  obtain ⟨t, rfl, hprefix⟩ := exists_of_taken start h
  have hnew : (t.step (.create deadline cancelled)).tokens[t.tokens.length]? =
      some ⟨t.tokens.length, deadline⟩ :=
    List.getElem?_concat_length
  exact getElem?_of_longer hprefix hnew

/-- A clone is the same entry as the token it was made of. -/
theorem tokens_eq_of_clones {i j : Nat} (h : Clones steps i j) :
    (run { now := start } steps).tokens[i]? = (run { now := start } steps).tokens[j]? := by
  obtain ⟨hlt, htaken⟩ := h
  obtain ⟨t, rfl, hprefix⟩ := exists_of_taken start htaken
  obtain ⟨k, hk⟩ : ∃ k, t.tokens[i]? = some k := ⟨_, List.getElem?_eq_getElem hlt⟩
  have htokens : (t.step (.clone i)).tokens = t.tokens ++ [k] := by simp only [step, hk]
  rw [htokens] at hprefix
  have hold : (t.tokens ++ [k])[i]? = some k := by rw [List.getElem?_append_left hlt, hk]
  rw [getElem?_of_longer hprefix hold, getElem?_of_longer hprefix List.getElem?_concat_length]

theorem tokens_eq_of_kin {i j : Nat} (h : Kin steps i j) :
    (run { now := start } steps).tokens[i]? = (run { now := start } steps).tokens[j]? := by
  induction h with
  | rel i j hclones => exact tokens_eq_of_clones start hclones
  | refl i => rfl
  | symm i j _ ih => exact ih.symm
  | trans i j l _ _ hij hjl => exact hij.trans hjl

/-- A token that was cancelled is one that there is. -/
theorem exists_token_of_struck {i : Nat} (h : Struck steps i) :
    ∃ k, (run { now := start } steps).tokens[i]? = some k := by
  rcases h with ⟨tokens, hi, htaken⟩ | ⟨deadline, htaken⟩
  · obtain ⟨t, rfl, hprefix⟩ := exists_of_taken start htaken
    have hlt : i < (t.step (.cancel i)).tokens.length :=
      Nat.lt_of_lt_of_le hi (t.prefix_tokens_step (.cancel i)).length_le
    exact ⟨_, List.getElem?_eq_getElem (Nat.lt_of_lt_of_le hlt hprefix.length_le)⟩
  · exact ⟨_, token_of_created start htaken⟩

variable {start}

/-- Every token goes back to the one whose number its family bears, and was created with its
deadline. -/
theorem exists_origin {i : Nat} {k : Token}
    (h : (run { now := start } steps).tokens[i]? = some k) :
    Kin steps k.family i ∧ ∃ cancelled, Taken steps (.create k.deadline cancelled) k.family := by
  induction steps using List.reverseRecOn generalizing i with
  | nil => cases h
  | append_singleton steps s ih =>
    have hlater : ∀ {i : Nat}, (run { now := start } steps).tokens[i]? = some k →
        Kin (steps ++ [s]) k.family i ∧
          ∃ cancelled, Taken (steps ++ [s]) (.create k.deadline cancelled) k.family := by
      intro i hi
      obtain ⟨hkin, cancelled, htaken⟩ := ih hi
      exact ⟨hkin.append [s], cancelled, htaken.append [s]⟩
    have hlen := length_tokens_run start steps
    rw [run_append_singleton] at h
    rcases (run { now := start } steps).tokens_step_cases s with ⟨-, hsame⟩ | ⟨-, new, hnew, hmade⟩
    · rw [hsame] at h
      exact hlater h
    · rw [hnew, List.getElem?_append, hlen] at h
      split at h
      · exact hlater h
      · rename_i hi
        obtain ⟨hi', rfl⟩ : i - made steps = 0 ∧ new = k := by
          simpa [List.getElem?_singleton] using h
        obtain rfl : i = made steps := by omega
        rcases hmade with ⟨deadline, cancelled, rfl, rfl⟩ | ⟨origin, rfl, horigin⟩
        · rw [hlen]
          exact ⟨.refl _, cancelled, taken_append_singleton.2 (.inr ⟨rfl, rfl⟩)⟩
        · obtain ⟨hkin, hcreated⟩ := hlater horigin
          have hlt : origin < made steps := hlen ▸ (List.getElem?_eq_some_iff.1 horigin).1
          have hclones : Clones (steps ++ [.clone origin]) origin (made steps) :=
            ⟨hlt, taken_append_singleton.2 (.inr ⟨rfl, rfl⟩)⟩
          exact ⟨hkin.trans _ _ _ (.rel _ _ hclones), hcreated⟩

/-- Two tokens are kin exactly if they are the same entry. -/
theorem kin_iff_of_tokens {i j : Nat} {k k' : Token}
    (hi : (run { now := start } steps).tokens[i]? = some k)
    (hj : (run { now := start } steps).tokens[j]? = some k') :
    Kin steps i j ↔ k.family = k'.family := by
  constructor
  · intro h
    have hsame := tokens_eq_of_kin start h
    rw [hi, hj] at hsame
    rw [Option.some.inj hsame]
  · intro h
    exact ((exists_origin hi).1.symm _ _).trans _ _ _ (h ▸ (exists_origin hj).1)

theorem hasDeadline_iff_of_token {i : Nat} {k : Token}
    (hi : (run { now := start } steps).tokens[i]? = some k) (d : Nat) :
    HasDeadline steps i d ↔ k.deadline = some d := by
  constructor
  · rintro ⟨j, cancelled, hkin, hcreated⟩
    have hsame := tokens_eq_of_kin start hkin
    rw [hi, token_of_created start hcreated] at hsame
    rw [← Option.some.inj hsame]
  · intro h
    obtain ⟨hkin, cancelled, hcreated⟩ := exists_origin hi
    exact ⟨k.family, cancelled, hkin, h ▸ hcreated⟩

/-- The flags that are up are those of the families in which a token was cancelled. -/
theorem mem_flagged_run {f : Nat} :
    f ∈ (run { now := start } steps).flagged ↔
      ∃ j k, Struck steps j ∧ (run { now := start } steps).tokens[j]? = some k ∧ k.family = f := by
  induction steps using List.reverseRecOn with
  | nil =>
    refine ⟨nofun, ?_⟩
    rintro ⟨j, k, -, hk, -⟩
    cases hk
  | append_singleton steps s ih =>
    have hprefix := (run { now := start } steps).prefix_tokens_step s
    have hlen := length_tokens_run start steps
    rw [run_append_singleton, mem_flagged_step, ih]
    constructor
    · rintro (⟨j, k, hstruck, hk, hf⟩ | ⟨i, k, rfl, hk, hf⟩ | ⟨deadline, rfl, rfl⟩)
      · exact ⟨j, k, struck_append_singleton.2 (.inl hstruck), getElem?_of_longer hprefix hk, hf⟩
      · have hi : i < made steps := hlen ▸ (List.getElem?_eq_some_iff.1 hk).1
        exact ⟨i, k, struck_append_singleton.2 (.inr (.inl ⟨rfl, hi⟩)),
          getElem?_of_longer hprefix hk, hf⟩
      · exact ⟨made steps, _, struck_append_singleton.2 (.inr (.inr ⟨deadline, rfl, rfl⟩)),
          hlen ▸ List.getElem?_concat_length, rfl⟩
    · rintro ⟨j, k, hstruck, hk, hf⟩
      -- a token that there was before is still the same
      have hkept : ∀ {k'}, (run { now := start } steps).tokens[j]? = some k' → k'.family = f := by
        intro k' hk'
        rw [getElem?_of_longer hprefix hk'] at hk
        rw [Option.some.inj hk, hf]
      rcases struck_append_singleton.1 hstruck with h | ⟨rfl, hj⟩ | ⟨deadline, rfl, rfl⟩
      · obtain ⟨k', hk'⟩ := exists_token_of_struck start h
        exact .inl ⟨j, k', h, hk', hkept hk'⟩
      · have hj' := List.getElem?_eq_getElem (hlen.symm ▸ hj)
        exact .inr (.inl ⟨j, _, rfl, hj', hkept hj'⟩)
      · have hnew :
            ((run { now := start } steps).step (.create deadline true)).tokens[made steps]? =
              some ⟨(run { now := start } steps).tokens.length, deadline⟩ :=
          hlen ▸ List.getElem?_concat_length
        rw [hnew] at hk
        obtain rfl := Option.some.inj hk
        exact .inr (.inr ⟨deadline, rfl, hf.symm⟩)

theorem familyStruck_iff_of_token {i : Nat} {k : Token}
    (hi : (run { now := start } steps).tokens[i]? = some k) :
    FamilyStruck steps i ↔ k.family ∈ (run { now := start } steps).flagged := by
  rw [mem_flagged_run]
  constructor
  · rintro ⟨j, hkin, hstruck⟩
    obtain ⟨k', hj⟩ := exists_token_of_struck start hstruck
    exact ⟨j, k', hstruck, hj, (kin_iff_of_tokens hj hi).1 hkin⟩
  · rintro ⟨j, k', hstruck, hj, hfamily⟩
    exact ⟨j, (kin_iff_of_tokens hj hi).2 hfamily, hstruck⟩

/-! ## Reasons -/

theorem reason?_of_token {t : TokenTable} {i : Nat} {k : Token} (h : t.tokens[i]? = some k) :
    t.reason? i = some (reasonOf (t.flagged.contains k.family) (t.overdue k)) := by
  rw [reason?, h]
  rfl

theorem overdue_iff {t : TokenTable} {k : Token} :
    t.overdue k = true ↔ ∃ d, k.deadline = some d ∧ d ≤ t.now := by
  unfold overdue
  cases k.deadline with
  | none => simp
  | some d => simp

/-- A token that has fired has fired ever after, and the reason changes at most from the deadline to
the cancellation. -/
theorem reason?_run {t : TokenTable} {i : Nat} {r : Reason} (h : t.reason? i = some (some r))
    (more : List TokenStep) :
    ∃ r', (t.run more).reason? i = some (some r') ∧
      (r' = r ∨ r = .deadlineExceeded ∧ r' = .cancelled) := by
  obtain ⟨k, hk, hr⟩ := Option.map_eq_some_iff.1 h
  have hflagged : t.flagged.contains k.family = true →
      (t.run more).flagged.contains k.family = true := by
    rw [List.contains_iff_mem, List.contains_iff_mem]
    exact fun hf => t.flagged_run_subset more hf
  have hoverdue : t.overdue k = true → (t.run more).overdue k = true := by
    rw [overdue_iff, overdue_iff, now_run]
    rintro ⟨d, hd, hnow⟩
    exact ⟨d, hd, Nat.le_add_right_of_le hnow⟩
  rw [reason?_of_token (getElem?_of_longer (t.prefix_tokens_run more) hk)]
  rcases reasonOf_mono hflagged hoverdue hr with hsame | hcancelled
  · exact ⟨r, congrArg some hsame, .inl rfl⟩
  · refine ⟨.cancelled, congrArg some hcancelled, ?_⟩
    cases r with
    | cancelled => exact .inl rfl
    | deadlineExceeded => exact .inr ⟨rfl, rfl⟩

/-- A step that cancels a token leaves the tokens of other families as they were. -/
theorem reason?_cancel_of_not_kin {i j : Nat} (h : ¬Kin steps i j) :
    ((run { now := start } steps).step (.cancel j)).reason? i =
      (run { now := start } steps).reason? i := by
  cases hj : (run { now := start } steps).tokens[j]? with
  | none => simp only [step, hj]
  | some k' =>
    rw [step_cancel_of_token hj, reason?, reason?]
    cases hi : (run { now := start } steps).tokens[i]? with
    | none => rfl
    | some k =>
      have hne : (k.family == k'.family) = false := by
        rw [beq_eq_false_iff_ne]
        exact fun hfamily => h ((kin_iff_of_tokens hi hj).2 hfamily)
      simp only [Option.map_some, List.contains_cons, hne, Bool.false_or]
      rfl

theorem check?_eq_error_iff {t : TokenTable} {i : Nat} {e : StoreError} :
    t.check? i = some (.error e) ↔ ∃ r, e = .abandoned r ∧ t.reason? i = some (some r) := by
  rw [check?]
  rcases t.reason? i with _ | _ | r
  · simp
  · simp
  · simp [eq_comm]

theorem isCancelled?_eq_some_true_iff {t : TokenTable} {i : Nat} :
    t.isCancelled? i = some true ↔ ∃ r, t.reason? i = some (some r) := by
  rw [isCancelled?]
  rcases t.reason? i with _ | _ | r <;> simp

end TokenTable

open TokenTable in
/-- After any steps, from any time on, a token says that it was cancelled exactly if a token of its
family was; otherwise that its deadline is over exactly if the one that its family was created with
is not in the future; otherwise nothing. So a token that has fired stays so, and its reason can only
change from the deadline to the cancellation; to cancel a token makes no difference to other
families; and the look at a token before a call fails exactly if it has fired, for its reason. -/
theorem reason_of_history (start : Nat) (steps : List TokenStep) :
    let t := TokenTable.run { now := start } steps
    let time := start + elapsed steps
    (∀ i, i < made steps → ∃ reason, t.reason? i = some reason ∧
      (reason = some .cancelled ↔ FamilyStruck steps i) ∧
      (reason = some .deadlineExceeded ↔
        ¬FamilyStruck steps i ∧ ∃ d, HasDeadline steps i d ∧ d ≤ time) ∧
      (reason = none ↔ ¬FamilyStruck steps i ∧ ∀ d, HasDeadline steps i d → time < d)) ∧
    (∀ i r more, t.reason? i = some (some r) →
      ∃ r', (t.run more).reason? i = some (some r') ∧
        (r' = r ∨ r = .deadlineExceeded ∧ r' = .cancelled)) ∧
    (∀ i j, ¬Kin steps i j → (t.step (.cancel j)).reason? i = t.reason? i) ∧
    ∀ i, (t.isCancelled? i = some true ↔ ∃ e, t.check? i = some (.error e)) ∧
      ∀ e, t.check? i = some (.error e) ↔
        ∃ r, e = .abandoned r ∧ t.reason? i = some (some r) := by
  intro t time
  refine ⟨fun i hi => ?_, fun i r more h => reason?_run h more,
    fun i j h => reason?_cancel_of_not_kin h, fun i => ⟨?_, fun e => check?_eq_error_iff⟩⟩
  · have hlen : i < t.tokens.length := (length_tokens_run start steps).symm ▸ hi
    obtain ⟨k, hk⟩ : ∃ k, t.tokens[i]? = some k := ⟨_, List.getElem?_eq_getElem hlen⟩
    have hnow : t.now = time := now_run _ steps
    have hstruck := familyStruck_iff_of_token hk
    have hoverdue : t.overdue k = true ↔ ∃ d, HasDeadline steps i d ∧ d ≤ time := by
      simp only [overdue_iff, hasDeadline_iff_of_token hk, hnow]
    have hahead : (∀ d, HasDeadline steps i d → time < d) ↔ ¬t.overdue k = true := by
      rw [hoverdue]
      simp
    refine ⟨_, reason?_of_token hk, ?_⟩
    rw [hahead, ← hoverdue, hstruck, ← List.contains_iff_mem]
    cases t.flagged.contains k.family <;> cases t.overdue k <;> simp [reasonOf]
  · rw [isCancelled?_eq_some_true_iff]
    simp only [check?_eq_error_iff]
    exact ⟨fun ⟨r, h⟩ => ⟨_, r, rfl, h⟩, fun ⟨_, r, _, h⟩ => ⟨r, h⟩⟩

open TokenTable in
/-- A token and the clones of its clone: the deadline is over for all of them, and when the last one
is cancelled then all of them are, while another token knows of nothing. -/
theorem reason_of_history_sample :
    let steps : List TokenStep :=
      [.create (some 2) false, .clone 0, .create none false, .clone 1, .wait 2]
    let later := steps ++ [.cancel 3]
    let t := TokenTable.run { now := 0 } steps
    t.reason? 0 = some (some .deadlineExceeded) ∧ ¬FamilyStruck steps 0 ∧
      (∃ d, HasDeadline steps 0 d ∧ d ≤ 2) ∧
      (t.step (.cancel 3)).reason? 2 = t.reason? 2 ∧
      (∃ r, (t.run [.cancel 3]).reason? 0 = some (some r) ∧ r = .cancelled) ∧
      FamilyStruck later 0 ∧ (∃ e, (t.run [.cancel 3]).check? 0 = some (.error e)) := by
  intro steps later t
  obtain ⟨hreasons, hstays, hothers, -⟩ := reason_of_history 0 steps
  obtain ⟨hlater, -, -, hchecks⟩ := reason_of_history 0 later
  have hkin : ¬Kin steps 2 3 := by
    intro h
    have hsame := tokens_eq_of_kin 0 h
    revert hsame
    decide
  obtain ⟨reason, hreason, -, hdeadline, -⟩ := hreasons 0 (by decide)
  obtain rfl : some .deadlineExceeded = reason := Option.some.inj hreason
  obtain ⟨hstruck, hover⟩ := hdeadline.1 rfl
  obtain ⟨r, hr, -⟩ := hstays 0 .deadlineExceeded [.cancel 3] hreason
  obtain rfl : .cancelled = r := Option.some.inj (Option.some.inj hr)
  obtain ⟨reason', hreason', hcancelled, -⟩ := hlater 0 (by decide)
  obtain rfl : some .cancelled = reason' := Option.some.inj hreason'
  exact ⟨hreason, hstruck, hover, hothers 2 3 hkin, ⟨_, hr, rfl⟩, hcancelled.1 rfl,
    (hchecks 0).1.1 rfl⟩

end JobBoard.Cancel
