import Graticule.Json
import Graticule.Text.Reader

/-!
# Reading JSON

The strict grammar of JSON: no comments, no trailing commas, no second value
after the first. Strings hold no raw control characters, and an escape of half
a surrogate pair is refused.

A whole number that fits a 64-bit word, signed or not, is kept exactly, except
for a zero with a minus sign; every other number is a double, and the rule that
finds it is an argument. So is the number of arrays and objects that may stand
inside one another.
-/

namespace Graticule.Json

/-- What is left open by the grammar. -/
structure Rules where
  /-- How deep arrays and objects may be nested. -/
  depth : Nat
  /-- The double of a numeral; none where it has none. -/
  real : Numeral → Option Float

/-- The blanks allowed between the parts of a value. -/
def isBlank (c : Char) : Bool := c == ' ' || c == '\n' || c == '\t' || c == '\r'

/-- The text without the blanks in front. -/
def skip (text : List Char) : List Char := text.dropWhile isBlank

theorem length_skip_le (text : List Char) : (skip text).length ≤ text.length :=
  Reader.length_dropWhile_le _ _

theorem length_lt_of_skip {text rest : List Char} {c : Char}
    (h : skip text = c :: rest) : rest.length < text.length := by
  have := length_skip_le text
  rw [h, List.length_cons] at this
  omega

/-- A first half of a surrogate pair. -/
def isHighSurrogate (n : Nat) : Bool := 0xD800 ≤ n && n < 0xDC00

/-- A second half of a surrogate pair. -/
def isLowSurrogate (n : Nat) : Bool := 0xDC00 ≤ n && n < 0xE000

theorem rest_lt_code (rest : List Char) : rest.length < rest.length + 5 := by
  omega

theorem rest_lt_pair (rest : List Char) : rest.length < rest.length + 11 := by
  omega

theorem half_lt_pair (rest : List Char) : rest.length + 6 < rest.length + 11 := by
  omega

/-- What follows the backslash of an escape. -/
def escape : Reader Char
  | '"' :: rest => some ('"', ⟨rest, Reader.rest_lt rest⟩)
  | '\\' :: rest => some ('\\', ⟨rest, Reader.rest_lt rest⟩)
  | '/' :: rest => some ('/', ⟨rest, Reader.rest_lt rest⟩)
  | 'b' :: rest => some ('\x08', ⟨rest, Reader.rest_lt rest⟩)
  | 'f' :: rest => some ('\x0c', ⟨rest, Reader.rest_lt rest⟩)
  | 'n' :: rest => some ('\n', ⟨rest, Reader.rest_lt rest⟩)
  | 'r' :: rest => some ('\r', ⟨rest, Reader.rest_lt rest⟩)
  | 't' :: rest => some ('\t', ⟨rest, Reader.rest_lt rest⟩)
  | 'u' :: a :: b :: c :: d :: '\\' :: 'u' :: e :: f :: g :: h :: rest => do
    let high ← Reader.hexValue? [a, b, c, d]
    if isHighSurrogate high then
      let low ← Reader.hexValue? [e, f, g, h]
      if isLowSurrogate low then
        let pair ← Reader.scalarValue?
          (0x10000 + (high - 0xD800) * 0x400 + (low - 0xDC00))
        some (pair, ⟨rest, rest_lt_pair rest⟩)
      else none
    else
      let single ← Reader.scalarValue? high
      some (single, ⟨'\\' :: 'u' :: e :: f :: g :: h :: rest, half_lt_pair rest⟩)
  | 'u' :: a :: b :: c :: d :: rest => do
    let code ← Reader.hexValue? [a, b, c, d]
    let single ← Reader.scalarValue? code
    some (single, ⟨rest, rest_lt_code rest⟩)
  | _ => none

/-- The rest of a string whose opening quote has been read, after the
characters taken, the last one first. -/
def stringBody {n : Nat} (taken : List Char) :
    (text : List Char) → text.length < n → Option (String × Rest n)
  | '"' :: rest, h =>
    some (String.ofList taken.reverse, ⟨rest, by simp at h; omega⟩)
  | '\\' :: rest, h =>
    match escape rest with
    | some (c, ⟨rest', h'⟩) =>
      stringBody (c :: taken) rest' (by simp at h; omega)
    | none => none
  | c :: rest, h =>
    if c < ' ' then none
    else stringBody (c :: taken) rest (by simp at h; omega)
  | [], _ => none
termination_by text => text.length
decreasing_by
  · simp only [List.length_cons]; omega
  · simp only [List.length_cons]; omega

/-- The digits after a point, if there is one; at least one must follow. -/
def fraction (text : List Char) :
    Option (Option (List Nat) × Tail text.length) :=
  match text with
  | '.' :: rest =>
    match Reader.digits rest with
    | ([], _) => none
    | (digits, ⟨tail, h⟩) =>
      some (some digits, ⟨tail, by simp only [List.length_cons]; omega⟩)
  | text => some (none, ⟨text, Nat.le_refl _⟩)

/-- The power after the sign of an exponent; at least one digit must follow. -/
def power (negative : Bool) (text : List Char) :
    Option (Int × Tail text.length) :=
  match Reader.digits text with
  | ([], _) => none
  | (digits, tail) =>
    let size : Int := digitsValue digits
    some (if negative then -size else size, tail)

/-- A power of ten, if one is given. -/
def exponent (text : List Char) : Option (Option Int × Tail text.length) :=
  match text with
  | c :: rest =>
    if c == 'e' || c == 'E' then
      match rest with
      | '-' :: rest' =>
        (power true rest').map fun (e, ⟨tail, h⟩) =>
          (some e, ⟨tail, Reader.tail_le_two h⟩)
      | '+' :: rest' =>
        (power false rest').map fun (e, ⟨tail, h⟩) =>
          (some e, ⟨tail, Reader.tail_le_two h⟩)
      | rest =>
        (power false rest).map fun (e, ⟨tail, h⟩) =>
          (some e, ⟨tail, Reader.tail_le h⟩)
    else some (none, ⟨c :: rest, Nat.le_refl _⟩)
  | [] => some (none, ⟨[], Nat.le_refl _⟩)

/-- A number without its sign. A zero in front of other digits is refused. -/
def unsignedNumeral : Reader Numeral
  | [] => none
  | c :: rest =>
    if c.isDigit then
      let (more, ⟨tail, h⟩) := Reader.digits rest
      if c == '0' && !more.isEmpty then none
      else do
        let (fraction, ⟨tail', h'⟩) ← fraction tail
        let (exponent, ⟨tail'', h''⟩) ← exponent tail'
        some ({ whole := digitValue c :: more, fraction, exponent },
          ⟨tail'', by simp only [List.length_cons]; omega⟩)
    else none

/-- A number. -/
def numeral : Reader Numeral
  | '-' :: rest =>
    (unsignedNumeral rest).map fun (n, ⟨tail, h⟩) =>
      ({ n with negative := true }, ⟨tail, by simp only [List.length_cons]; omega⟩)
  | text => unsignedNumeral text

/-- The number a numeral stands for. -/
def numberOf (real : Numeral → Option Float) (n : Numeral) : Option JsonNumber :=
  let value := n.wholeValue
  if n.isWhole && !(n.negative && value == 0)
      && (-Int.pow 2 63 ≤ value && value < Int.pow 2 64) then
    some (.whole value)
  else (real n).map .real

/-- The elements of an array from the next one on, after those read, the last
one first. -/
def elements {n : Nat} (item : Reader Json) (taken : List Json)
    (text : List Char) (h : text.length < n) : Option (List Json × Rest n) :=
  match item text with
  | none => none
  | some (v, ⟨rest, h'⟩) =>
    match hs : skip rest with
    | ',' :: rest' =>
      elements item (v :: taken) rest' (by have := length_lt_of_skip hs; omega)
    | ']' :: rest' =>
      some ((v :: taken).reverse, ⟨rest', by have := length_lt_of_skip hs; omega⟩)
    | _ => none
termination_by text.length
decreasing_by
  have := length_lt_of_skip hs
  omega

/-- The members of an object from the next one on, after those read, the last
one first. -/
def members {n : Nat} (item : Reader Json) (taken : List (String × Json))
    (text : List Char) (h : text.length < n) :
    Option (List (String × Json) × Rest n) :=
  match hk : skip text with
  | '"' :: rest =>
    match stringBody [] rest (Reader.rest_lt rest) with
    | none => none
    | some (key, ⟨afterKey, h₁⟩) =>
      match hc : skip afterKey with
      | ':' :: afterColon =>
        match item afterColon with
        | none => none
        | some (v, ⟨afterValue, h₂⟩) =>
          match hs : skip afterValue with
          | ',' :: rest' =>
            members item ((key, v) :: taken) rest' (by
              have := length_lt_of_skip hk
              have := length_lt_of_skip hc
              have := length_lt_of_skip hs
              omega)
          | '}' :: rest' =>
            some (((key, v) :: taken).reverse, ⟨rest', by
              have := length_lt_of_skip hk
              have := length_lt_of_skip hc
              have := length_lt_of_skip hs
              omega⟩)
          | _ => none
      | _ => none
  | _ => none
termination_by text.length
decreasing_by
  have := length_lt_of_skip hk
  have := length_lt_of_skip hc
  have := length_lt_of_skip hs
  omega

/-- A value that starts at once, its arrays and objects read by `inner`; none
is read where there is no room for nesting. -/
def valueHere (real : Numeral → Option Float) (inner : Option (Reader Json)) :
    Reader Json
  | 'n' :: 'u' :: 'l' :: 'l' :: rest =>
    some (.null, ⟨rest, by simp only [List.length_cons]; omega⟩)
  | 't' :: 'r' :: 'u' :: 'e' :: rest =>
    some (.boolean true, ⟨rest, by simp only [List.length_cons]; omega⟩)
  | 'f' :: 'a' :: 'l' :: 's' :: 'e' :: rest =>
    some (.boolean false, ⟨rest, by simp only [List.length_cons]; omega⟩)
  | '"' :: rest =>
    (stringBody [] rest (Reader.rest_lt rest)).map fun (s, tail) => (.string s, tail)
  | '[' :: rest =>
    inner.bind fun item =>
      match h : skip rest with
      | ']' :: rest' =>
        some (.array [], ⟨rest', by
          have := length_lt_of_skip h
          simp only [List.length_cons]
          omega⟩)
      | _ =>
        (elements item [] rest (Reader.rest_lt rest)).map fun (es, tail) =>
          (.array es, tail)
  | '{' :: rest =>
    inner.bind fun item =>
      match h : skip rest with
      | '}' :: rest' =>
        some (.object [], ⟨rest', by
          have := length_lt_of_skip h
          simp only [List.length_cons]
          omega⟩)
      | _ =>
        (members item [] rest (Reader.rest_lt rest)).map fun (ms, tail) =>
          (.object ms, tail)
  | text => do
    let (n, tail) ← numeral text
    let value ← numberOf real n
    some (.number value, tail)

/-- A value after any blanks, nested no deeper than `depth`. -/
def value (real : Numeral → Option Float) : (depth : Nat) → Reader Json
  | 0, text => afterBlanks (valueHere real none) text
  | depth + 1, text => afterBlanks (valueHere real (some (value real depth))) text
where
  /-- Reads past the blanks in front. -/
  afterBlanks (read : Reader Json) : Reader Json := fun text =>
    (read (skip text)).map fun (v, ⟨rest, h⟩) =>
      (v, ⟨rest, Nat.lt_of_lt_of_le h (length_skip_le text)⟩)

/-- The value a text holds, with every object as it was written; none if the
text is not JSON. -/
def read? (rules : Rules) (text : String) : Option Json :=
  match value rules.real rules.depth text.toList with
  | some (v, ⟨rest, _⟩) => if (skip rest).isEmpty then some v else none
  | none => none

/-- The rules for documents: at most 127 arrays and objects inside one another,
and doubles by scaling, where an overflow is an error. -/
def documentRules : Rules := ⟨127, Numeral.scaled⟩

end Graticule.Json
