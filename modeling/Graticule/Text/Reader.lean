import Graticule.Decimal.Numeral

/-!
# Readers

A reader takes a value off the front of a text and hands back the rest of it,
which is shorter. That is the whole of what makes reading end: every loop below
and in the formats runs on the length of what is left.

A text is the list of its characters. The answer of a reader at a text, and of
a loop that started at it, bounds the rest by one number, so a loop can hand
its answer on as it is.
-/

namespace Graticule

/-- What is left of a text after something has been read off it: fewer than
`n` characters. -/
abbrev Rest (n : Nat) := { rest : List Char // rest.length < n }

/-- What is left of a text after something that may be absent: at most `n`
characters. -/
abbrev Tail (n : Nat) := { tail : List Char // tail.length ≤ n }

/-- Reads a value off the front of a text, or refuses. -/
abbrev Reader (β : Type) := (text : List Char) → Option (β × Rest text.length)

namespace Reader

theorem rest_le (rest : List Char) : rest.length ≤ rest.length := Nat.le_refl _

theorem rest_lt (rest : List Char) : rest.length < rest.length + 1 :=
  Nat.lt_succ_self _

theorem rest_lt_two (rest : List Char) : rest.length < rest.length + 2 :=
  Nat.lt_succ_of_lt (rest_lt rest)

theorem rest_lt_of_lt {text rest : List Char} (h : rest.length < text.length) :
    rest.length < text.length + 1 :=
  Nat.lt_succ_of_lt h

theorem tail_le {rest tail : List Char} (h : tail.length ≤ rest.length) :
    tail.length ≤ rest.length + 1 :=
  Nat.le_succ_of_le h

theorem tail_le_two {rest tail : List Char} (h : tail.length ≤ rest.length) :
    tail.length ≤ rest.length + 2 :=
  Nat.le_succ_of_le (tail_le h)

theorem tail_lt {rest tail : List Char} (h : tail.length ≤ rest.length) :
    tail.length < rest.length + 1 :=
  Nat.lt_succ_of_le h

theorem length_dropWhile_le (p : Char → Bool) (text : List Char) :
    (text.dropWhile p).length ≤ text.length := by
  induction text with
  | nil => simp
  | cons c rest ih =>
      simp only [List.dropWhile_cons]
      split
      · exact Nat.le_succ_of_le ih
      · exact Nat.le_refl _

/-- The digits at the front of a text, perhaps none. -/
def digits (text : List Char) : List Nat × Tail text.length :=
  ((text.takeWhile Char.isDigit).map digitValue,
    ⟨text.dropWhile Char.isDigit, length_dropWhile_le _ _⟩)

/-- The value of a hexadecimal digit, in either case. -/
def hexDigit? (c : Char) : Option Nat :=
  if c.isDigit then some (digitValue c)
  else if 'a' ≤ c ∧ c ≤ 'f' then some (c.toNat - 'a'.toNat + 10)
  else if 'A' ≤ c ∧ c ≤ 'F' then some (c.toNat - 'A'.toNat + 10)
  else none

/-- The number some hexadecimal digits spell. -/
def hexValue? (digits : List Char) : Option Nat :=
  digits.foldlM (fun n c => (hexDigit? c).map (16 * n + ·)) 0

/-- The character of a code point, if it is one: the surrogates are not. -/
def scalarValue? (n : Nat) : Option Char :=
  if h : n.isValidChar then some (Char.ofNatAux n h) else none

end Reader

end Graticule
