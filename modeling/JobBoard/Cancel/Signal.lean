import JobBoard.Cancel.Reason

/-!
# The signal of one call

What a running call can learn about its cancel token. The token may fire while the call runs; the
alarms say at which moments it will. Moments are counted from now on, so a run is determined by the
signal it starts with, and a signal without alarms never changes.
-/

namespace JobBoard.Cancel

/-- The moments at which a token can fire: an operation is announced, a row is written, the token is
about to be looked at before a statement, or by the connection while one runs. -/
inductive Moment where
  | announcement
  | write
  | check
  | look
  deriving DecidableEq, Repr

/-- The token fires at the `left`-th coming moment of a kind, for a reason. -/
structure Alarm where
  moment : Moment
  left : Nat
  reason : Reason
  deriving DecidableEq, Repr

/-- Whether the next moment of a kind sets the alarm off. -/
def Alarm.due (m : Moment) (a : Alarm) : Bool := a.moment == m && a.left == 1

/-- The alarm after a moment of a kind has passed; none when it is spent. -/
def Alarm.pass (m : Moment) (a : Alarm) : Option Alarm :=
  if a.moment = m then
    if a.left ≤ 1 then none else some { a with left := a.left - 1 }
  else some a

/-- The state of a token as a call sees it. -/
structure Signal where
  cancelled : Bool := false
  overdue : Bool := false
  alarms : List Alarm := []
  deriving DecidableEq, Repr

namespace Signal

/-- Why the token has fired, if it has. -/
def reason (s : Signal) : Option Reason := reasonOf s.cancelled s.overdue

/-- Whether the token has fired. -/
def fired (s : Signal) : Bool := s.reason.isSome

/-- The signal after the caller cancelled. -/
def cancel (s : Signal) : Signal := { s with cancelled := true }

/-- The signal after a moment of a kind has passed. -/
def tick (m : Moment) (s : Signal) : Signal :=
  let due := s.alarms.filter (Alarm.due m)
  { cancelled := s.cancelled || due.any (·.reason == .cancelled)
    overdue := s.overdue || due.any (·.reason == .deadlineExceeded)
    alarms := s.alarms.filterMap (Alarm.pass m) }

/-- The signal after a number of moments of a kind. -/
def ticks (m : Moment) : Nat → Signal → Signal
  | 0, s => s
  | n + 1, s => ticks m n (s.tick m)

end Signal

end JobBoard.Cancel
