import JobBoard.Observe.Event

/-!
# The file of the log

How a line is written to the file and read back. A written line has a time and a place in the
program code, neither of which is told. Reading goes line by line; what does not look like a written
line is passed over, and values that differ from run to run are masked.
-/

namespace JobBoard.Logging

open Observe

/-- The name of the file to which lines are added. -/
def fileName : String := "resumatch_rCURRENT.log"

/-- A line as it is written to the file. -/
def fileLine (l : Line) : String := "[*] " ++ l.level.label ++ " [*] *: " ++ l.text ++ "\n"

/-- Characters before the first occurrence of a mark, and those behind it. -/
def cutAt? (mark : List Char) : List Char → Option (List Char × List Char)
  | [] => none
  | c :: cs =>
    if mark.isPrefixOf (c :: cs) then some ([], (c :: cs).drop mark.length)
    else (cutAt? mark cs).map fun (before, behind) => (c :: before, behind)

/-- The labels whose values differ from run to run. -/
def maskedLabels : List String := ["duration_ms=", "location="]

/-- A word with a star in place of what stands behind a label. -/
def maskBehind (word label : String) : String :=
  match cutAt? label.toList word.toList with
  | some (before, _) => String.ofList before ++ label ++ untold
  | none => word

/-- A text with a star in place of the value of every masked label; a value ends at a space. -/
def mask (text : String) : String :=
  " ".intercalate ((text.splitOn " ").map fun word => maskedLabels.foldl maskBehind word)

/-- A line as it is shown. -/
def shown (l : Line) : String := l.level.label ++ " " ++ mask l.text

/-- What is shown of a line of the file, if it looks like a written one: the label of its level and
its text. -/
def readLine? (line : String) : Option String := do
  let (_, rest) ← cutAt? "] ".toList line.toList
  let (level, rest) ← cutAt? " [".toList rest
  let (_, rest) ← cutAt? "] ".toList rest
  let (_, text) ← cutAt? ": ".toList rest
  some (String.ofList level ++ " " ++ mask (String.ofList text))

/-- A line without the carriage return at its end. -/
def dropReturn (line : String) : String :=
  match line.toList.reverse with
  | '\r' :: rest => String.ofList rest.reverse
  | _ => line

/-- What is shown of the file. -/
def readFile (text : String) : List String :=
  (text.splitOn "\n").filterMap fun line => readLine? (dropReturn line)

end JobBoard.Logging
