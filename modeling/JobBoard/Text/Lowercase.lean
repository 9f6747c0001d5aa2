import JobBoard.Text.CaseTable

/-!
# Lowercase text

The full lowercase form of a text. Every character goes through the simple mapping except two: the
capital I with a dot above becomes two characters, and a capital sigma at the end of a word becomes
the final sigma. The second exception looks at the neighbours, so lowercasing does not commute with
taking a part of a text.
-/

namespace JobBoard.Text

/-- Membership in a list of closed ranges. -/
def inRanges (ranges : List (Nat × Nat)) (n : Nat) : Bool :=
  ranges.any fun r => r.1 ≤ n && n ≤ r.2

/-- Letters that have a case. -/
def isCased (c : Char) : Bool := inRanges casedRanges c.toNat

/-- Marks and modifiers that do not separate a letter from its word. -/
def isCaseIgnorable (c : Char) : Bool := inRanges caseIgnorableRanges c.toNat

/-- Membership in a run. -/
def CaseRun.covers (r : CaseRun) (n : Nat) : Bool :=
  r.first ≤ n && n ≤ r.last && (n - r.first) % r.stride == 0

/-- The simple lowercase form of one character. -/
def lowerChar (c : Char) : Char :=
  if c.toNat < 0x41 then c
  else if c.toNat < 0x80 then
    if c.toNat ≤ 0x5a then Char.ofNat (c.toNat + 32) else c
  else
    match caseRuns.find? (·.covers c.toNat) with
    | some r => Char.ofNat ((c.toNat : Int) + r.delta).toNat
    | none => c

/-- Whether a cased letter comes next, looking through ignorable marks. -/
def casedNext (cs : List Char) : Bool :=
  match cs.dropWhile isCaseIgnorable with
  | c :: _ => isCased c
  | [] => false

/-- The lowercase form of a text, given the characters already passed, last one first. -/
def lowerFrom (before : List Char) : List Char → List Char
  | [] => []
  | c :: rest =>
    let lowered :=
      if c = 'Σ' then
        if casedNext before && !casedNext rest then ['ς'] else ['σ']
      else if c = 'İ' then ['i', '\u0307']
      else [lowerChar c]
    lowered ++ lowerFrom (c :: before) rest

/-- The lowercase form of a list of characters. -/
def lowerList (cs : List Char) : List Char := lowerFrom [] cs

/-- The lowercase form of a text. -/
def lowercase (s : String) : String := String.ofList (lowerList s.toList)

end JobBoard.Text
