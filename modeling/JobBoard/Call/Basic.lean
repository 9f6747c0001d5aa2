import JobBoard.Call.Activity
import JobBoard.Cancel.Signal
import JobBoard.Observe.Event
import JobBoard.Store.Connection

/-!
# Calls

The state of a call while it runs: its connection, its cancel token, and the notes taken so far.
Every statement of a call is guarded. The token is looked at before the statement and put where the
connection looks at it while the statement runs, so that the statement is given up if the token has
fired by one of these looks. After the statement the place is empty again.
-/

namespace JobBoard

open Cancel Observe Store

/-- A call that is under way. -/
structure Call where
  connection : Connection
  signal : Signal := {}
  /-- The token that the connection looks at while a statement runs. -/
  polled : Option Signal := none
  notes : List Note := []
  /-- The steps of the statements that are kept. -/
  taken : Taken := []
  deriving DecidableEq, Repr

/-- An outcome of the store together with the state it leaves. -/
abbrev Stored (σ α : Type) := Except StoreError α × σ

/-- An outcome of the board together with the state it leaves. -/
abbrev Answered (σ α : Type) := Except BoardError α × σ

/-- The token at a look, once the statement has written the rows that it has behind it by then. -/
def Store.Look.signal (l : Look) (s : Signal) : Signal :=
  (s.ticks .write l.rows).ticks .look l.number

/-- The first look at which the token has fired. -/
def stoppedAt? (looks : List Look) (polled : Option Signal) : Option Look :=
  polled.bind fun p => looks.find? fun l => (l.signal p).fired

namespace Call

variable {α : Type}

/-- The call with one more note. -/
def note (n : Note) (s : Call) : Call := { s with notes := s.notes ++ [n] }

/-- Tells the observer. Announcing an operation is a moment at which the token may fire. -/
def tell (e : Event) (s : Call) : Call :=
  let s := s.note (.event e)
  match e with
  | .called _ => { s with signal := s.signal.tick .announcement }
  | _ => s

/-- Looks at the token. -/
def check (s : Call) : Stored Call Unit :=
  let s := { s with signal := s.signal.tick .check }
  match s.signal.reason with
  | some r => (.error (.abandoned r), s)
  | none => (.ok (), s)

/-- Runs a statement under the token. It is looked at first, then the connection looks at it while
the statement runs, and no longer once the statement is over, whatever came of it. -/
def guarded (statement : Call → Stored Call α) (s : Call) : Stored Call α :=
  match s.check with
  | (.error e, s) => (.error e, s)
  | (.ok (), s) =>
    match statement { s with polled := some s.signal } with
    | (outcome, s) => (outcome, { s with polled := none })

/-- The error of a statement that the connection gave up. -/
def interruption (s : Call) : StoreError :=
  match s.signal.reason with
  | some r => .abandoned r
  | none => .refused .interrupted

/-- A guarded statement that reads. -/
def ask (q : Query α) : Call → Stored Call α :=
  guarded fun s =>
    if s.polled.any Signal.fired then (.error s.interruption, s)
    else
      match s.connection.read q with
      | (.ok a, c) => (.ok a, { s with connection := c })
      | (.error cause, c) => (.error (.refused cause), { s with connection := c })

/-- The call with a statement prepared anew. -/
def prepare (p : Prepared) (s : Call) : Call := { s with taken := s.taken.without p }

/-- The call after a run of a statement that took some steps and was looked at some times. -/
def spend (p : Prepared) (steps looks : Nat) (s : Call) : Call :=
  { s with signal := s.signal.ticks .look looks, taken := s.taken.advance p steps }

/-- A statement that writes, whatever the token says. -/
def perform (handsBack : α → Bool) (u : Update α) (s : Call) : Stored Call α :=
  let ran := s.connection.write handsBack u
  let s := { s with connection := ran.connection, signal := s.signal.ticks .write ran.writes }
  match ran.answer with
  | .ok a => (.ok a, s)
  | .error cause => (.error (.refused cause), s)

/-- The state after a statement was given up at a look. It is undone, and a transaction around it
too; but what is settled by then stays as it came out, and only its answer is lost. -/
def giveUp (p : Prepared) (after : Connection) (l : Look) (s : Call) : Stored Call α :=
  let s := { s with
    connection := if l.settled then after else s.connection.abandon
    signal := l.signal s.signal
    taken := s.taken.advance p l.steps }
  (.error s.interruption, s)

/-- A guarded statement that writes. -/
def change (p : Prepared) (handsBack : α → Bool) (u : Update α) : Call → Stored Call α :=
  guarded fun s =>
    let ran := s.connection.write handsBack u
    let looks := ran.work.looks ran.writes (s.taken.ofStatement p)
    match stoppedAt? looks s.polled with
    | some l => s.giveUp p ran.connection l
    | none => (s.spend p (ran.work.total ran.writes) looks.length).perform handsBack u

end Call

/-- An error of the store as an internal error of an activity. -/
def during {σ α : Type} (a : Activity) (r : Stored σ α) : Answered σ α :=
  match r with
  | (.ok x, s) => (.ok x, s)
  | (.error e, s) => (.error (.internal a.text (some e)), s)

/-- Announces an operation, runs it, and reports its error. The outcome is that of the run. -/
def observed {σ α : Type} (tell : Event → σ → σ) (op : Operation) (run : σ → Answered σ α)
    (s : σ) : Answered σ α :=
  match run (tell (.called op) s) with
  | (.ok a, s) => (.ok a, s)
  | (.error e, s) => (.error e, tell (.failed op e) s)

end JobBoard
