import JobBoard.Error.StoreError

/-!
# Tokens and their clones

A table of cancel tokens. Clones of a token share its flag, so they form a family; each token keeps
the deadline of the one it was cloned from. Time only moves forward.
-/

namespace JobBoard.Cancel

/-- A token: the family whose flag it shares, and its own deadline. -/
structure Token where
  family : Nat
  deadline : Option Nat
  deriving DecidableEq, Repr

/-- All tokens in the order of their creation, the families whose flag is up, and the time. -/
structure TokenTable where
  tokens : List Token := []
  flagged : List Nat := []
  now : Nat := 0
  deriving DecidableEq, Repr

/-- Something that happens to the table. -/
inductive TokenStep where
  | create (deadline : Option Nat) (cancelled : Bool)
  | clone (token : Nat)
  | cancel (token : Nat)
  | wait (ticks : Nat)
  deriving DecidableEq, Repr

namespace TokenTable

/-- The table after a step. A step on a token that does not exist changes nothing. -/
def step (t : TokenTable) : TokenStep → TokenTable
  | .create deadline cancelled =>
    let family := t.tokens.length
    { t with
      tokens := t.tokens ++ [⟨family, deadline⟩]
      flagged := if cancelled then family :: t.flagged else t.flagged }
  | .clone i =>
    match t.tokens[i]? with
    | some k => { t with tokens := t.tokens ++ [k] }
    | none => t
  | .cancel i =>
    match t.tokens[i]? with
    | some k => { t with flagged := k.family :: t.flagged }
    | none => t
  | .wait ticks => { t with now := t.now + ticks }

/-- The table after a sequence of steps. -/
def run (t : TokenTable) (steps : List TokenStep) : TokenTable := steps.foldl step t

/-- Whether the deadline of a token is not in the future. -/
def overdue (t : TokenTable) (k : Token) : Bool :=
  match k.deadline with
  | some d => d ≤ t.now
  | none => false

/-- Why a token has fired, if it has; nothing for a token that does not exist. -/
def reason? (t : TokenTable) (i : Nat) : Option (Option Reason) :=
  t.tokens[i]?.map fun k => reasonOf (t.flagged.contains k.family) (t.overdue k)

/-- Whether a token has fired; nothing for a token that does not exist. -/
def isCancelled? (t : TokenTable) (i : Nat) : Option Bool := (t.reason? i).map Option.isSome

/-- The look at a token before a call: a failure with its reason if it has fired; nothing for a
token that does not exist. -/
def check? (t : TokenTable) (i : Nat) : Option (Except StoreError Unit) :=
  (t.reason? i).map fun
    | some r => .error (.abandoned r)
    | none => .ok ()

end TokenTable

end JobBoard.Cancel
