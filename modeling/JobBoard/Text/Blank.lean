/-!
# Blank characters

The characters that count as white space in a name, and the two operations on them that names need:
trimming both ends and collapsing inner runs to one space.
-/

namespace JobBoard.Text

/-- White space: the tab to the carriage return, the space, the next-line control, and the spaces
and separators of the general punctuation blocks. -/
def isBlank (c : Char) : Bool :=
  let n := c.toNat
  (9 ≤ n && n ≤ 13) || n == 0x20 || n == 0x85 || n == 0xa0 || n == 0x1680 ||
    (0x2000 ≤ n && n ≤ 0x200a) || n == 0x2028 || n == 0x2029 || n == 0x202f ||
    n == 0x205f || n == 0x3000

/-- The characters from the first to the last that is not blank. -/
def trimList (cs : List Char) : List Char :=
  ((cs.dropWhile isBlank).reverse.dropWhile isBlank).reverse

/-- The text without the blanks at its two ends. -/
def trim (s : String) : String := String.ofList (trimList s.toList)

/-- Every run of blanks as a single space. The flag says that the run under way has been written. -/
def collapseFrom (inRun : Bool) : List Char → List Char
  | [] => []
  | c :: rest =>
    if isBlank c then
      if inRun then collapseFrom true rest else ' ' :: collapseFrom true rest
    else c :: collapseFrom false rest

/-- Every run of blanks as a single space. -/
def collapse (cs : List Char) : List Char := collapseFrom false cs

end JobBoard.Text
