/-!
# Paths

Paths by their components. Repeated and trailing separators do not count, and neither do single dots
when paths are compared; a double dot is a component like any other, except where a path is followed
through the folders.
-/

namespace JobBoard.Host

/-- The steps of a path: its components and its dots. -/
def steps (path : String) : List String :=
  ((path.toList.splitOn '/').map String.ofList).filter (· != "")

/-- The components of a path. -/
def components (path : String) : List String := (steps path).filter (· != ".")

/-- Whether a path starts at the root. -/
def isAbsolute (path : String) : Bool := path.toList.head? == some '/'

/-- Whether two absolute paths are the same, component by component. -/
def samePath (a b : String) : Bool := components a == components b

/-- Whether a path holds a NUL, which no name can. -/
def holdsNul (path : String) : Bool := path.toList.contains '\x00'

/-- The greatest number of bytes in a component. -/
def nameLimit : Nat := 255

/-- The greatest number of bytes in a path. -/
def pathLimit : Nat := 4095

end JobBoard.Host
