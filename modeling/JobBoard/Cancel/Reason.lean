/-!
# Reasons to give up

A call is given up because its caller asked for it or because its deadline passed. The first reason
hides the second.
-/

namespace JobBoard.Cancel

/-- Why a token fired. -/
inductive Reason where
  | cancelled
  | deadlineExceeded
  deriving DecidableEq, Repr

/-- The wording of a reason. -/
def Reason.text : Reason → String
  | .cancelled => "cancelled by caller"
  | .deadlineExceeded => "deadline exceeded"

/-- The reason that shows, given which of the two conditions hold. -/
def reasonOf (cancelled overdue : Bool) : Option Reason :=
  if cancelled then some .cancelled else if overdue then some .deadlineExceeded else none

/-- When more conditions hold a reason stays, or gives way to the caller's own wish. -/
theorem reasonOf_mono {c o c' o' : Bool} (hc : c = true → c' = true) (ho : o = true → o' = true)
    {r : Reason} (h : reasonOf c o = some r) :
    reasonOf c' o' = some r ∨ reasonOf c' o' = some .cancelled := by
  cases c' with
  | true => exact .inr rfl
  | false =>
    obtain rfl : c = false := by simpa using hc
    cases o with
    | false => cases h
    | true =>
      rw [ho rfl]
      exact .inl h

end JobBoard.Cancel
