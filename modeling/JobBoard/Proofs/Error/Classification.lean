import JobBoard.Error.BoardError

/-!
# Which refusals are which

The class of a failed write is read off codes. Among the refusals of the store only a clash of rows
is a uniqueness violation (`writeFailure_refused_eq_unique_iff`), and a call that was given up is
never taken for one (`writeFailure_of_isCancellation`).
-/

set_option autoImplicit false

namespace JobBoard

/-- Whether two rows agree where they must not. -/
def Refusal.isDuplicate : Refusal → Bool
  | .duplicate .. => true
  | _ => false

/-- A fault with the code of an interruption has no class of its own. -/
theorem StoreFault.writeFailure_of_isInterrupt {f : StoreFault} (h : f.isInterrupt = true) :
    f.writeFailure = .other := by
  cases f with
  | refused cause =>
    unfold StoreFault.isInterrupt at h
    split at h
    · rename_i hc
      simp only [StoreFault.codes?, Option.some.injEq, Prod.mk.injEq] at hc
      simp [StoreFault.writeFailure, StoreFault.codes?, hc.1, WriteFailure.ofCodes]
    · simp at h
  | reported primary extended message =>
    cases primary <;>
      simp_all [StoreFault.isInterrupt, StoreFault.codes?, StoreFault.writeFailure,
        WriteFailure.ofCodes]
  | _ => simp [StoreFault.isInterrupt, StoreFault.codes?] at h

namespace StoreError

theorem writeFailure_refused_eq_unique_iff (cause : Refusal) :
    (refused cause).writeFailure = .uniqueViolation ↔ cause.isDuplicate = true := by
  cases cause with
  | duplicate isRowId table columns =>
    cases isRowId <;> simp [refused, writeFailure, StoreFault.writeFailure, StoreFault.codes?,
      Refusal.code, PrimaryCode.ofExtended, WriteFailure.ofCodes, Refusal.isDuplicate]
  | _ =>
    simp [refused, writeFailure, StoreFault.writeFailure, StoreFault.codes?, Refusal.code,
      PrimaryCode.ofExtended, WriteFailure.ofCodes, Refusal.isDuplicate]

/-- Among the refusals of the store only an interruption is a cancellation. -/
theorem isCancellation_refused_iff (cause : Refusal) :
    (refused cause).isCancellation = true ↔ cause = .interrupted := by
  cases cause with
  | duplicate isRowId table columns =>
    cases isRowId <;> simp [refused, isCancellation, StoreFault.isInterrupt, StoreFault.codes?,
      Refusal.code, PrimaryCode.ofExtended]
  | _ =>
    simp [refused, isCancellation, StoreFault.isInterrupt, StoreFault.codes?, Refusal.code,
      PrimaryCode.ofExtended]

theorem writeFailure_of_isCancellation {e : StoreError} (h : e.isCancellation = true) :
    e.writeFailure = .other := by
  cases e with
  | fault f => exact StoreFault.writeFailure_of_isInterrupt h
  | newerSchema found latest => rfl
  | abandoned reason => rfl

end StoreError

end JobBoard
