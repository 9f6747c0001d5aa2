/-!
# Pattern matching

The pattern language of the store's text filter: `%` stands for any text, `_` for any one character,
and a backslash takes the next character literally. ASCII letters match in either case.
`contains` builds the pattern that finds a literal text anywhere.
-/

namespace JobBoard.Text

/-- The largest pattern, in bytes, that the store evaluates. -/
def patternByteLimit : Nat := 50000

/-- An ASCII capital as a small letter; other characters unchanged. -/
def asciiLower (c : Char) : Char := if 'A' ≤ c ∧ c ≤ 'Z' then Char.ofNat (c.toNat + 32) else c

/-- Equality up to ASCII case. -/
def sameLetter (a b : Char) : Bool := asciiLower a == asciiLower b

/-- One element of a pattern. -/
inductive Wild where
  | anyText
  | anyChar
  | letter (c : Char)
  deriving DecidableEq, Repr

/-- The elements of a pattern; none when it ends in the escape character. -/
def wilds : List Char → Option (List Wild)
  | [] => some []
  | ['\\'] => none
  | '\\' :: c :: rest => (wilds rest).map (.letter c :: ·)
  | c :: rest =>
    let w : Wild := if c = '%' then .anyText else if c = '_' then .anyChar else .letter c
    (wilds rest).map (w :: ·)

/-- Whether some tail of a text, the text itself included, satisfies a test. -/
def someTail (test : List Char → Bool) : List Char → Bool
  | [] => test []
  | c :: rest => test (c :: rest) || someTail test rest

/-- Whether the elements cover the whole text. -/
def matchWilds : List Wild → List Char → Bool
  | [], text => text.isEmpty
  | .anyText :: ws, text => someTail (matchWilds ws) text
  | .anyChar :: ws, _ :: text => matchWilds ws text
  | .letter c :: ws, t :: text => sameLetter c t && matchWilds ws text
  | _ :: _, [] => false

/-- The part of a text before its first NUL, which is all that matching looks at. -/
def untilNul (cs : List Char) : List Char := cs.takeWhile (· ≠ '\x00')

/-- Whether the pattern covers the whole text. -/
def like (pattern text : List Char) : Bool :=
  match wilds (untilNul pattern) with
  | some ws => matchWilds ws (untilNul text)
  | none => false

/-- A literal text as a pattern: the three characters with a meaning are escaped. -/
def escape : List Char → List Char
  | [] => []
  | c :: rest =>
    if c = '%' ∨ c = '_' ∨ c = '\\' then '\\' :: c :: escape rest else c :: escape rest

/-- The pattern of all texts that contain a literal text. -/
def containing (cs : List Char) : List Char := '%' :: (escape cs ++ ['%'])

end JobBoard.Text
