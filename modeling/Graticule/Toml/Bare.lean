import Graticule.Decimal.Numeral
import Graticule.Text.Reader
import Graticule.Toml

/-!
# Values without quotes

Truth values, numbers, dates and times are words: runs of letters, digits and
the signs `+ - _ . :`. A word is read as a whole, and it is one value or none.

Whole numbers fit a signed 64-bit word. They may be written to the bases two,
eight and sixteen, without a sign then. Single underscores may stand between
digits. A number with a point or a power of ten is a double; one above all
finite doubles is refused, although infinity has a word.
-/

namespace Graticule.Toml.Bare

/-- The characters of words. -/
def isWordChar (c : Char) : Bool :=
  c.isAlphanum || c == '+' || c == '-' || c == '_' || c == '.' || c == ':'

/-! ## Numbers -/

/-- Digits of some sort, with single underscores between them. -/
def grouped (isDigit : Char → Bool) : List Char → Option (List Char)
  | [] => none
  | [c] => if isDigit c then some [c] else none
  | c :: '_' :: rest => if isDigit c then (c :: ·) <$> grouped isDigit rest else none
  | c :: rest => if isDigit c then (c :: ·) <$> grouped isDigit rest else none

/-- The decimal digits of a word, with their values. -/
def digits (word : List Char) : Option (List Nat) :=
  List.map digitValue <$> grouped Char.isDigit word

/-- The digits in front of a point: none but a zero alone starts with a
zero. -/
def wholeDigits (word : List Char) : Option (List Nat) := do
  let ds ← digits word
  if 1 < ds.length && ds.head? == some 0 then none else some ds

/-- A sign in front of a word: it is negative, and the word without it. -/
def signed : List Char → Bool × List Char
  | '-' :: rest => (true, rest)
  | '+' :: rest => (false, rest)
  | word => (false, word)

/-- A whole number, if it fits a signed 64-bit word. -/
def inRange (n : Int) : Option Toml :=
  if -Int.pow 2 63 ≤ n ∧ n < Int.pow 2 63 then some (.integer n) else none

/-- A whole number to the base ten. -/
def decimalInteger (word : List Char) : Option Toml := do
  let (negative, size) := signed word
  let whole ← wholeDigits size
  inRange (Numeral.wholeValue { negative, whole })

/-- A whole number to the base given, by the digits after the mark of the
base. -/
def basedInteger (base : Nat) (word : List Char) : Option Toml := do
  let isDigit (c : Char) : Bool := (Reader.hexDigit? c).any (· < base)
  let ds ← grouped isDigit word
  inRange (ds.foldl (fun n c => base * n + (Reader.hexDigit? c).getD 0) 0 : Nat)

/-- A whole number. -/
def integer : List Char → Option Toml
  | '0' :: 'x' :: rest => basedInteger 16 rest
  | '0' :: 'o' :: rest => basedInteger 8 rest
  | '0' :: 'b' :: rest => basedInteger 2 rest
  | word => decimalInteger word

/-- The power of ten of a double, by what follows its mark. -/
def power (word : List Char) : Option Int := do
  let (negative, size) := signed word
  let n : Int := digitsValue (← digits size)
  some (if negative then -n else n)

/-- A double by its digits: with a point, a power of ten, or both. -/
def decimalFloat (word : List Char) : Option Toml := do
  let (negative, size) := signed word
  let isMark (c : Char) : Bool := c == 'e' || c == 'E'
  let front := size.takeWhile (!isMark ·)
  let exponent ← match size.dropWhile (!isMark ·) with
    | [] => some none
    | _ :: rest => some <$> power rest
  let whole ← wholeDigits (front.takeWhile (· != '.'))
  let fraction ← match front.dropWhile (· != '.') with
    | [] => some none
    | _ :: rest => some <$> digits rest
  let n : Numeral := { negative, whole, fraction, exponent }
  if n.isWhole || n.nearest == Binary64.infinity then none
  else some (.float n.nearest)

/-- A double by its name. -/
def namedFloat (word : List Char) : Option Toml :=
  let (negative, size) := signed word
  if size = ['i', 'n', 'f'] then
    some (.float (if negative then -Binary64.infinity else Binary64.infinity))
  else if size = ['n', 'a', 'n'] then some (.float Binary64.notANumber)
  else none

/-! ## Dates and times -/

/-- A number of so many digits in front of a word, and what follows it. -/
def fixed (count : Nat) (word : List Char) : Option (Nat × List Char) :=
  let ds := word.take count
  if ds.length = count && ds.all Char.isDigit then
    some (digitsValue (ds.map digitValue), word.drop count)
  else none

/-- What follows a character in front of a word. -/
def after (c : Char) : List Char → Option (List Char)
  | d :: rest => if c = d then some rest else none
  | [] => none

/-- The number of days of a month. -/
def daysIn (year month : Nat) : Nat :=
  if month = 2 then
    if year % 4 = 0 ∧ (year % 100 ≠ 0 ∨ year % 400 = 0) then 29 else 28
  else if month = 4 ∨ month = 6 ∨ month = 9 ∨ month = 11 then 30
  else 31

/-- What follows a date in front of a word. -/
def date (word : List Char) : Option (List Char) := do
  let (year, rest) ← fixed 4 word
  let (month, rest) ← fixed 2 (← after '-' rest)
  let (day, rest) ← fixed 2 (← after '-' rest)
  if 1 ≤ month ∧ month ≤ 12 ∧ 1 ≤ day ∧ day ≤ daysIn year month then some rest
  else none

/-- What follows an hour and a minute in front of a word. -/
def clock (word : List Char) : Option (List Char) := do
  let (hour, rest) ← fixed 2 word
  let (minute, rest) ← fixed 2 (← after ':' rest)
  if hour ≤ 23 ∧ minute ≤ 59 then some rest else none

/-- What follows a time of the day in front of a word. Leap seconds are
allowed, and so is any number of decimals. -/
def time (word : List Char) : Option (List Char) := do
  let rest ← clock word
  let (second, rest) ← fixed 2 (← after ':' rest)
  if 60 < second then none
  else
    match rest with
    | '.' :: decimals =>
      if (decimals.takeWhile Char.isDigit).isEmpty then none
      else some (decimals.dropWhile Char.isDigit)
    | rest => some rest

/-- The word is the offset of a time from Greenwich, or empty. -/
def isOffset : List Char → Bool
  | [] => true
  | ['Z'] | ['z'] => true
  | '+' :: rest | '-' :: rest => clock rest == some []
  | _ => false

/-- The word is a date. -/
def isDate (word : List Char) : Bool := date word == some []

/-- The word is a date, a time, or both with a `T` between them and perhaps an
offset after them. -/
def isMoment (word : List Char) : Bool :=
  match date word with
  | some [] => true
  | some (c :: rest) => (c == 'T' || c == 't') && (time rest).any isOffset
  | none => time word == some []

/-! ## Words -/

/-- The value of a word. -/
def ofWord? (word : List Char) : Option Toml :=
  if word = ['t', 'r', 'u', 'e'] then some (.boolean true)
  else if word = ['f', 'a', 'l', 's', 'e'] then some (.boolean false)
  else if isMoment word then some .moment
  else integer word <|> decimalFloat word <|> namedFloat word

/-- A value without quotes. A date and a time may have a space between them. -/
def value : Reader Toml
  | [] => none
  | c :: text =>
    let word := c :: text.takeWhile isWordChar
    if isWordChar c then
      match h : text.dropWhile isWordChar with
      | ' ' :: d :: rest =>
        if d.isDigit && isDate word then
          let time := d :: rest.takeWhile isWordChar
          (ofWord? (word ++ 'T' :: time)).map fun v =>
            (v, ⟨rest.dropWhile isWordChar, by
              have h₁ := Reader.length_dropWhile_le isWordChar text
              have h₂ := Reader.length_dropWhile_le isWordChar rest
              rw [h] at h₁
              simp only [List.length_cons] at h₁ ⊢
              omega⟩)
        else
          (ofWord? word).map fun v =>
            (v, ⟨' ' :: d :: rest, by
              have h₁ := Reader.length_dropWhile_le isWordChar text
              rw [h] at h₁
              simp only [List.length_cons] at h₁ ⊢
              omega⟩)
      | rest =>
        (ofWord? word).map fun v =>
          (v, ⟨rest, by
            have h₁ := Reader.length_dropWhile_le isWordChar text
            rw [h] at h₁
            simp only [List.length_cons]
            omega⟩)
    else none

end Graticule.Toml.Bare
