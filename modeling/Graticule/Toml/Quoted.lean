import Graticule.Text.Reader

/-!
# Strings

There are four kinds of strings. A basic one stands between quotes and knows
escapes; a literal one stands between apostrophes and holds everything as it
is. Either kind may be opened and closed by three marks instead of one, and
then it may run over several lines: a newline right after the opening is not
part of it, and every other newline counts as one line feed.

One or two marks inside such a string belong to it, also right in front of the
three that close it. A backslash at the end of a line takes with it all blanks
and newlines up to the next character.

Control characters other than the tab stand in no string.
-/

namespace Graticule.Toml

/-- The characters of comments and, the marks apart, of strings: everything but
control characters, of which the tab is allowed. -/
def isPlain (c : Char) : Bool := c == '\t' || (' ' ≤ c && c != '\x7f')

/-- The text without the blanks and newlines in front. -/
def skipNewlines : List Char → List Char
  | ' ' :: rest => skipNewlines rest
  | '\t' :: rest => skipNewlines rest
  | '\n' :: rest => skipNewlines rest
  | '\r' :: '\n' :: rest => skipNewlines rest
  | text => text

theorem length_skipNewlines_le (text : List Char) :
    (skipNewlines text).length ≤ text.length := by
  fun_induction skipNewlines text with
  | case5 => exact Nat.le_refl _
  | _ => simp only [List.length_cons]; omega

/-- The text after a newline, if it starts with one. -/
def newline? (text : List Char) : Option (Rest text.length) :=
  match text with
  | '\n' :: rest => some ⟨rest, Reader.rest_lt rest⟩
  | '\r' :: '\n' :: rest => some ⟨rest, Reader.rest_lt_two rest⟩
  | _ => none

/-- The characters of a code point of so many hexadecimal digits. -/
def codePoint (count : Nat) (text : List Char) :
    Option (Char × Tail text.length) := do
  let ds := text.take count
  if ds.length = count then
    let code ← Reader.hexValue? ds
    let c ← Reader.scalarValue? code
    some (c, ⟨text.drop count, by simp⟩)
  else none

/-- What follows the backslash of an escape. -/
def escape : Reader Char
  | 'b' :: rest => some ('\x08', ⟨rest, Reader.rest_lt rest⟩)
  | 't' :: rest => some ('\t', ⟨rest, Reader.rest_lt rest⟩)
  | 'n' :: rest => some ('\n', ⟨rest, Reader.rest_lt rest⟩)
  | 'f' :: rest => some ('\x0c', ⟨rest, Reader.rest_lt rest⟩)
  | 'r' :: rest => some ('\r', ⟨rest, Reader.rest_lt rest⟩)
  | '"' :: rest => some ('"', ⟨rest, Reader.rest_lt rest⟩)
  | '\\' :: rest => some ('\\', ⟨rest, Reader.rest_lt rest⟩)
  | 'u' :: rest =>
    (codePoint 4 rest).map fun (c, ⟨tail, h⟩) => (c, ⟨tail, Reader.tail_lt h⟩)
  | 'U' :: rest =>
    (codePoint 8 rest).map fun (c, ⟨tail, h⟩) => (c, ⟨tail, Reader.tail_lt h⟩)
  | _ => none

/-- What follows the backslash at the end of a line: the text from the next
character on that is neither a blank nor a newline. -/
def lineEscape (text : List Char) : Option (Tail text.length) :=
  match h : newline? (text.dropWhile fun c => c == ' ' || c == '\t') with
  | some ⟨rest, hr⟩ =>
    some ⟨skipNewlines rest, by
      have h₁ := length_skipNewlines_le rest
      have h₂ := Reader.length_dropWhile_le (fun c => c == ' ' || c == '\t') text
      omega⟩
  | none => none

/-- The characters of a string, taken in reverse, as a string. -/
def taken (cs : List Char) : String := String.ofList cs.reverse

/-- The rest of a basic string on one line. -/
def basicBody {n : Nat} (cs : List Char) :
    (text : List Char) → text.length < n → Option (String × Rest n)
  | '"' :: rest, h => some (taken cs, ⟨rest, by simp at h; omega⟩)
  | '\\' :: rest, h =>
    match escape rest with
    | some (c, ⟨rest', _⟩) => basicBody (c :: cs) rest' (by simp at h; omega)
    | none => none
  | c :: rest, h =>
    if isPlain c then basicBody (c :: cs) rest (by simp at h; omega) else none
  | [], _ => none
termination_by text => text.length
decreasing_by
  · simp only [List.length_cons]; omega
  · simp only [List.length_cons]; omega

/-- The rest of a literal string on one line. -/
def literalBody {n : Nat} (cs : List Char) :
    (text : List Char) → text.length < n → Option (String × Rest n)
  | '\'' :: rest, h => some (taken cs, ⟨rest, by simp at h; omega⟩)
  | c :: rest, h =>
    if isPlain c then literalBody (c :: cs) rest (by simp at h; omega) else none
  | [], _ => none

/-- The rest of a string of several lines that is closed by three marks. With
escapes, a backslash starts one. -/
def linesBody {n : Nat} (mark : Char) (escapes : Bool) (cs : List Char)
    (text : List Char) (h : text.length < n) : Option (String × Rest n) :=
  match text with
  | [] => none
  | c :: rest =>
    if c == mark then
      match rest with
      | d :: e :: rest' =>
        if d == mark && e == mark then
          match rest' with
          | f :: g :: tail =>
            if f == mark && g == mark then
              some (taken (mark :: mark :: cs), ⟨tail, by simp at h; omega⟩)
            else if f == mark then
              some (taken (mark :: cs), ⟨g :: tail, by simp at h ⊢; omega⟩)
            else some (taken cs, ⟨f :: g :: tail, by simp at h ⊢; omega⟩)
          | [f] =>
            if f == mark then some (taken (mark :: cs), ⟨[], by simp at h ⊢; omega⟩)
            else some (taken cs, ⟨[f], by simp at h ⊢; omega⟩)
          | [] => some (taken cs, ⟨[], by simp at h ⊢; omega⟩)
        else
          linesBody mark escapes (mark :: cs) (d :: e :: rest') (by simp at h ⊢; omega)
      | _ => none
    else if escapes && c == '\\' then
      match lineEscape rest with
      | some ⟨rest', _⟩ => linesBody mark escapes cs rest' (by simp at h; omega)
      | none =>
        match escape rest with
        | some (d, ⟨rest', _⟩) =>
          linesBody mark escapes (d :: cs) rest' (by simp at h; omega)
        | none => none
    else
      match newline? (c :: rest) with
      | some ⟨rest', _⟩ =>
        linesBody mark escapes ('\n' :: cs) rest' (by omega)
      | none =>
        if isPlain c then linesBody mark escapes (c :: cs) rest (by simp at h; omega)
        else none
termination_by text.length
decreasing_by all_goals simp_all only [List.length_cons]; try omega

/-- The rest of a string after three marks. -/
def linesString (mark : Char) (escapes : Bool) (text : List Char) :
    Option (String × Rest (text.length + 1)) :=
  match newline? text with
  | some ⟨rest, h⟩ => linesBody mark escapes [] rest (Reader.rest_lt_of_lt h)
  | none => linesBody mark escapes [] text (Reader.rest_lt text)

/-- A basic or a literal string on one line. -/
def lineString : Reader String
  | '"' :: rest => basicBody [] rest (Reader.rest_lt rest)
  | '\'' :: rest => literalBody [] rest (Reader.rest_lt rest)
  | _ => none

/-- A string of any kind. -/
def quoted : Reader String
  | '"' :: '"' :: '"' :: rest =>
    (linesString '"' true rest).map fun (s, ⟨tail, h⟩) =>
      (s, ⟨tail, by simp only [List.length_cons]; omega⟩)
  | '\'' :: '\'' :: '\'' :: rest =>
    (linesString '\'' false rest).map fun (s, ⟨tail, h⟩) =>
      (s, ⟨tail, by simp only [List.length_cons]; omega⟩)
  | text => lineString text

end Graticule.Toml
