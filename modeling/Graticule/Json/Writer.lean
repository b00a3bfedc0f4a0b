import Graticule.Json
import Graticule.Decimal.Layout

/-!
# Writing JSON

A value is written without blanks, and the members of an object in the order
in which they stand. In a string the quote, the backslash and the control
characters are escaped; everything else stands as it is.

The text grows at its end: every function takes what has been written so far
and adds to it.
-/

namespace Graticule.Json

/-- A digit of a lower-case hexadecimal number. -/
def hexDigit (n : Nat) : Char := (Nat.toDigits 16 n).headD '0'

/-- A character inside a string. -/
def writeChar (out : String) (c : Char) : String :=
  if c == '"' then out ++ "\\\""
  else if c == '\\' then out ++ "\\\\"
  else if c == '\n' then out ++ "\\n"
  else if c == '\r' then out ++ "\\r"
  else if c == '\t' then out ++ "\\t"
  else if c == '\x08' then out ++ "\\b"
  else if c == '\x0c' then out ++ "\\f"
  else if c < ' ' then
    ((out ++ "\\u00").push (hexDigit (c.toNat / 16))).push (hexDigit (c.toNat % 16))
  else out.push c

/-- A string between its quotes. -/
def writeString (out : String) (s : String) : String :=
  (s.toList.foldl writeChar (out.push '"')).push '"'

/-- The text of a number. -/
def numberText : JsonNumber → String
  | .whole n => toString n
  | .real x => Layout.document.text x

mutual

/-- Adds a value. -/
def write (out : String) : Json → String
  | null => out ++ "null"
  | boolean true => out ++ "true"
  | boolean false => out ++ "false"
  | number n => out ++ numberText n
  | string s => writeString out s
  | array [] => out ++ "[]"
  | array (e :: rest) => writeElements (write (out.push '[') e) rest
  | object [] => out ++ "{}"
  | object ((k, v) :: rest) =>
    writeMembers (write ((writeString (out.push '{') k).push ':') v) rest

/-- Adds the elements after the first, and closes the array. -/
def writeElements (out : String) : List Json → String
  | [] => out.push ']'
  | e :: rest => writeElements (write (out.push ',') e) rest

/-- Adds the members after the first, and closes the object. -/
def writeMembers (out : String) : List (String × Json) → String
  | [] => out.push '}'
  | (k, v) :: rest =>
    writeMembers (write ((writeString (out.push ',') k).push ':') v) rest

end

/-- The text of a value. -/
def text (v : Json) : String := write "" v

end Graticule.Json
