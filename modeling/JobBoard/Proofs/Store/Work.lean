import JobBoard.Store.Work

/-!
# Looks at statements

A look that falls on a step behind the last point at which a statement can be undone finds its
outcome settled. Which steps are looked at depends on all runs of the statement together
(`Work.exists_look_settled_iff`).
-/

set_option autoImplicit false

namespace JobBoard.Store

namespace Work

variable {w : Work} {rows taken : Nat}

theorem mem_looks_iff (l : Look) :
    l ∈ w.looks rows taken ↔
      ∃ i < (taken % lookSteps + w.total rows) / lookSteps,
        w.look rows (i + 1) (lookSteps * (i + 1) - taken % lookSteps) = l := by
  simp [looks]

theorem settled_look (number due : Nat) :
    (w.look rows number due).settled = true ↔ w.before + w.each * rows < due := by
  unfold look
  split
  · simp only [Bool.false_eq_true, false_iff]
    omega
  · split
    · simp only [Bool.false_eq_true, false_iff]
      omega
    · simp only [true_iff]
      omega

/-- A look finds the outcome of a statement settled if a step is looked at that comes behind the
last point at which the statement can be undone. -/
theorem exists_look_settled_iff :
    (∃ l ∈ w.looks rows taken, l.settled = true) ↔
      ∃ n, w.before + w.each * rows < n ∧ n ≤ w.total rows ∧ lookSteps ∣ taken + n := by
  simp only [mem_looks_iff, lookSteps]
  constructor
  · rintro ⟨l, ⟨i, hi, rfl⟩, hsettled⟩
    rw [settled_look] at hsettled
    exact ⟨_, hsettled, by omega, by omega⟩
  · rintro ⟨n, hbehind, hle, hlook⟩
    refine ⟨_, ⟨(taken + n) / 1000 - taken / 1000 - 1, by omega, rfl⟩, ?_⟩
    rw [settled_look]
    omega

/-- Where only the last step is behind that point, and the statement is run for the first time, the
number of its steps decides. -/
theorem exists_look_settled_of_after_eq_one (h : w.after = 1) :
    (∃ l ∈ w.looks rows 0, l.settled = true) ↔ lookSteps ∣ w.total rows := by
  rw [exists_look_settled_iff]
  have htotal : w.total rows = w.before + w.each * rows + 1 := by rw [total, h]
  constructor
  · rintro ⟨n, hbehind, hle, hlook⟩
    obtain rfl : n = w.total rows := by omega
    simpa using hlook
  · intro hlook
    exact ⟨w.total rows, by omega, Nat.le_refl _, by simpa using hlook⟩

/-- The outcome of a statement that can be undone up to its end is not settled at any look. -/
theorem not_settled_of_after_eq_zero (h : w.after = 0) {l : Look} (hl : l ∈ w.looks rows taken) :
    l.settled = false := by
  rw [Bool.eq_false_iff]
  intro hsettled
  obtain ⟨n, hbehind, hle, -⟩ := exists_look_settled_iff.1 ⟨l, hl, hsettled⟩
  rw [total, h] at hle
  omega

/-- The outcome of a statement that can be undone at none of its steps is settled at every look. -/
theorem settled_of_mem_looks (h : w.before + w.each * rows = 0) {l : Look}
    (hl : l ∈ w.looks rows taken) : l.settled = true := by
  obtain ⟨i, -, rfl⟩ := (mem_looks_iff l).1 hl
  rw [settled_look, h, lookSteps]
  omega

end Work

/-! ## Steps of prepared statements -/

namespace Taken

variable {p : Prepared}

/-- A statement that is prepared anew has no step behind it. -/
theorem ofStatement_without (t : Taken) (p : Prepared) : (t.without p).ofStatement p = 0 := by
  have hnone : (t.without p).lookup p = none := by
    simp only [without, List.lookup_eq_none_iff, List.mem_filter]
    rintro ⟨q, n⟩ ⟨-, hq⟩
    have hne : q ≠ p := by simpa using hq
    simpa using hne.symm
  cases p <;> simp [ofStatement, hnone]

/-- The steps of a statement that is kept add up. -/
theorem ofStatement_advance (t : Taken) (h : p ≠ .once) (steps : Nat) :
    (t.advance p steps).ofStatement p = t.ofStatement p + steps := by
  cases p with
  | once => exact absurd rfl h
  | entry d => simp [ofStatement, advance]
  | edge => simp [ofStatement, advance]

end Taken

end JobBoard.Store
