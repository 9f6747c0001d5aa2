import JobBoard.Wire.Value

/-!
# Printing wire values

A value is printed on one line without gaps. Within a text, the quote, the backslash and the
characters below the space are escaped, and nothing else. A number with a fraction is printed with
all its digits, and one that is infinite or undefined as `null`.
-/

namespace JobBoard.Wire

/-- The hexadecimal digit of a number below sixteen. -/
def hexDigit (n : Nat) : Char :=
  Char.ofNat (if n < 10 then '0'.toNat + n else 'a'.toNat + (n - 10))

/-- A character behind a text, escaped where needed. -/
def pushEscaped (out : String) (c : Char) : String :=
  if c == '"' then out ++ "\\\""
  else if c == '\\' then out ++ "\\\\"
  else if c.toNat < 0x20 then
    ((out ++ "\\u00").push (hexDigit (c.toNat / 16))).push (hexDigit (c.toNat % 16))
  else out.push c

/-- A quoted text behind a text. -/
def pushText (out s : String) : String := (s.foldl pushEscaped (out.push '"')).push '"'

namespace Value

mutual

/-- A value behind a text. -/
def push (out : String) : Value → String
  | .null => out ++ "null"
  | .flag b => out ++ (if b then "true" else "false")
  | .whole n => out ++ toString n
  | .real x =>
    if x.isFinite then
      out ++ (if x.isNegative then "-" else "") ++ toString x.decimal.1 ++ "e" ++
        toString x.decimal.2
    else out ++ "null"
  | .text s => pushText out s
  | .list vs => (pushMembers (out.push '[') true vs).push ']'
  | .record fields => (pushFields (out.push '\x7b') true fields).push '\x7d'

/-- The members of a list behind a text, each but the first with a comma before it. -/
def pushMembers (out : String) (first : Bool) : List Value → String
  | [] => out
  | v :: rest => pushMembers (push (if first then out else out.push ',') v) false rest

/-- The fields of a record behind a text, each but the first with a comma before it. -/
def pushFields (out : String) (first : Bool) : List (String × Value) → String
  | [] => out
  | (name, v) :: rest =>
    let named := (pushText (if first then out else out.push ',') name).push ':'
    pushFields (push named v) false rest

end

/-- The text of a value. -/
def print (v : Value) : String := push "" v

end Value

end JobBoard.Wire
