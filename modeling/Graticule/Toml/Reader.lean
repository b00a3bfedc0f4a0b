import Graticule.Toml.Bare
import Graticule.Toml.Quoted

/-!
# Reading TOML

A document is read line by line: a header in brackets, the header of an array's
element in double brackets, or a member. After each of them there may be a
comment, and nothing else up to the end of the line. Arrays may run over
several lines with comments between their elements and a comma after the last;
an inline table stays on one line and ends without a comma.

Arrays and inline tables are nested at most 79 deep, and a name has at most 79
parts.
-/

namespace Graticule.Toml

/-- The blanks inside a line. -/
def isBlank (c : Char) : Bool := c == ' ' || c == '\t'

/-- The text without the blanks in front. -/
def skip (text : List Char) : List Char := text.dropWhile isBlank

theorem length_skip_le (text : List Char) : (skip text).length ≤ text.length :=
  Reader.length_dropWhile_le _ _

theorem length_lt_of_skip {text rest : List Char} {c : Char}
    (h : skip text = c :: rest) : rest.length < text.length := by
  have := length_skip_le text
  rw [h, List.length_cons] at this
  omega

/-- The text without the blanks, newlines and comments in front. -/
def skipLines : List Char → List Char
  | ' ' :: rest => skipLines rest
  | '\t' :: rest => skipLines rest
  | '\n' :: rest => skipLines rest
  | '\r' :: '\n' :: rest => skipLines rest
  | '#' :: rest => skipLines (rest.dropWhile isPlain)
  | text => text
termination_by text => text.length
decreasing_by
  all_goals simp only [List.length_cons]
  all_goals try omega
  have := Reader.length_dropWhile_le isPlain rest
  omega

theorem length_skipLines_le (text : List Char) :
    (skipLines text).length ≤ text.length := by
  fun_induction skipLines text with
  | case5 rest ih =>
    have := Reader.length_dropWhile_le isPlain rest
    simp only [List.length_cons]
    omega
  | case6 => exact Nat.le_refl _
  | _ => simp only [List.length_cons]; omega

theorem length_lt_of_skipLines {text rest : List Char} {c : Char}
    (h : skipLines text = c :: rest) : rest.length < text.length := by
  have := length_skipLines_le text
  rw [h, List.length_cons] at this
  omega

/-- The text after a comment, if it starts with one. -/
def afterComment : List Char → List Char
  | '#' :: rest => rest.dropWhile isPlain
  | text => text

theorem length_afterComment_le (text : List Char) :
    (afterComment text).length ≤ text.length := by
  unfold afterComment
  split
  · next rest =>
    have := Reader.length_dropWhile_le isPlain rest
    simp only [List.length_cons]
    omega
  · exact Nat.le_refl _

/-- The text after the end of a line: after blanks and perhaps a comment there
is a newline, or nothing. -/
def endOfLine (text : List Char) : Option (Tail text.length) :=
  have h₁ := length_skip_le text
  have h₂ := length_afterComment_le (skip text)
  match afterComment (skip text), h₂ with
  | [], _ => some ⟨[], Nat.zero_le _⟩
  | c :: rest, h₂ =>
    (newline? (c :: rest)).map fun ⟨tail, h⟩ => ⟨tail, by omega⟩

/-! ## Names -/

/-- The characters of names without quotes. -/
def isNameChar (c : Char) : Bool := c.isAlphanum || c == '_' || c == '-'

/-- A part of a name. -/
def namePart : Reader String
  | [] => none
  | c :: rest =>
    if isNameChar c then
      some (String.ofList (c :: rest.takeWhile isNameChar),
        ⟨rest.dropWhile isNameChar, Nat.lt_succ_of_le
          (Reader.length_dropWhile_le isNameChar rest)⟩)
    else lineString (c :: rest)

/-- The parts of a name from the next one on, after those read, the last one
first. Blanks may stand around every part. -/
def nameParts {n : Nat} (path : List String) (text : List Char)
    (h : text.length ≤ n) : Option (Key × Rest n) :=
  have h₁ := length_skip_le text
  match namePart (skip text) with
  | none => none
  | some (part, ⟨rest, h₂⟩) =>
    match hs : skip rest with
    | '.' :: rest' =>
      nameParts (part :: path) rest' (by have := length_lt_of_skip hs; omega)
    | rest' =>
      some (⟨path.reverse, part⟩, ⟨rest', by
        have := length_skip_le rest
        rw [hs] at this
        omega⟩)
termination_by text.length
decreasing_by
  have := length_lt_of_skip hs
  omega

/-- A name with the blanks around it. -/
def key (text : List Char) : Option (Key × Rest text.length) :=
  match nameParts [] text (Reader.rest_le text) with
  | some (k, rest) => if k.path.length < 79 then some (k, rest) else none
  | none => none

/-! ## Values -/

theorem lt_of_skipLines {n : Nat} {text rest : List Char} {c : Char}
    (h : text.length < n) (hc : skipLines text = c :: rest) : rest.length < n :=
  Nat.lt_trans (length_lt_of_skipLines hc) h

theorem lt_of_item {n : Nat} {text rest : List Char}
    (h : text.length < n) (hitem : rest.length < (skipLines text).length) :
    rest.length < n :=
  Nat.lt_trans (Nat.lt_of_lt_of_le hitem (length_skipLines_le text)) h

/-- The elements of an array from the next one on, after those read, the last
one first. -/
def elements {n : Nat} (item : Reader Toml) (taken : List Toml)
    (text : List Char) (h : text.length < n) : Option (Toml × Rest n) :=
  match hc : skipLines text with
  | ']' :: rest =>
    some (.array taken.reverse, ⟨rest, lt_of_skipLines h hc⟩)
  | _ =>
    match item (skipLines text) with
    | none => none
    | some (v, ⟨rest, h₂⟩) =>
      match hs : skipLines rest with
      | ',' :: rest' =>
        elements item (v :: taken) rest' (lt_of_skipLines (lt_of_item h h₂) hs)
      | ']' :: rest' =>
        some (.array (v :: taken).reverse, ⟨rest', lt_of_skipLines (lt_of_item h h₂) hs⟩)
      | _ => none
termination_by text.length
decreasing_by
  have := length_lt_of_skipLines hs
  have := length_skipLines_le text
  omega

/-- A name, an equals sign, and the value after it. -/
def assignment (item : Reader Toml) (text : List Char) :
    Option ((Key × Toml) × Rest text.length) :=
  match key text with
  | none => none
  | some (k, ⟨rest, h₁⟩) =>
    match rest with
    | '=' :: rest' =>
      have h₂ := length_skip_le rest'
      (item (skip rest')).map fun (v, ⟨tail, h₃⟩) =>
        ((k, v), ⟨tail, by simp only [List.length_cons] at h₁; omega⟩)
    | _ => none

/-- The members of an inline table from the next one on, after those read, the
last one first. -/
def inlineMembers {n : Nat} (item : Reader Toml) (taken : List (Key × Toml))
    (text : List Char) (h : text.length < n) : Option (Toml × Rest n) :=
  match assignment item text with
  | none => none
  | some (m, ⟨rest, h₁⟩) =>
    match hs : skip rest with
    | ',' :: rest' =>
      inlineMembers item (m :: taken) rest' (by
        have := length_lt_of_skip hs
        omega)
    | '}' :: rest' =>
      (inlineTable (m :: taken).reverse).map fun t =>
        (t, ⟨rest', by
          have := length_lt_of_skip hs
          omega⟩)
    | _ => none
termination_by text.length
decreasing_by
  have := length_lt_of_skip hs
  omega

/-- A value whose arrays and inline tables are read by `inner`; none is read
where there is no room for nesting. -/
def valueWith (inner : Option (Reader Toml)) : Reader Toml
  | '[' :: rest => inner.bind fun item => elements item [] rest (Reader.rest_lt rest)
  | '{' :: rest =>
    inner.bind fun item =>
      match h : skip rest with
      | '}' :: rest' =>
        some (.table .inline [], ⟨rest', by
          have := length_lt_of_skip h
          simp only [List.length_cons]
          omega⟩)
      | _ => inlineMembers item [] rest (Reader.rest_lt rest)
  | c :: rest =>
    if c == '"' || c == '\'' then
      (quoted (c :: rest)).map fun (s, tail) => (.string s, tail)
    else Bare.value (c :: rest)
  | [] => none

/-- A value nested no deeper than `depth`. -/
def value : (depth : Nat) → Reader Toml
  | 0 => valueWith none
  | depth + 1 => valueWith (some (value depth))

/-! ## Documents -/

/-- A name and the bracket that closes it. -/
def closedKey (text : List Char) : Option (Key × Rest text.length) :=
  match key text with
  | some (k, ⟨']' :: rest, h⟩) =>
    some (k, ⟨rest, by simp only [List.length_cons] at h; omega⟩)
  | _ => none

/-- A statement, from its first character on. -/
def statement : Reader Statement
  | '[' :: '[' :: rest =>
    match closedKey rest with
    | some (k, ⟨']' :: rest', h⟩) =>
      some (.element k, ⟨rest', by simp only [List.length_cons] at h ⊢; omega⟩)
    | _ => none
  | '[' :: rest =>
    (closedKey rest).map fun (k, ⟨rest', h⟩) =>
      (.header k, ⟨rest', by simp only [List.length_cons]; omega⟩)
  | text => (assignment (value 79) text).map fun ((k, v), rest) => (.member k v, rest)

/-- The statements from the next line on, after those read, the last one
first. -/
def statements (taken : List Statement) (text : List Char) :
    Option (List Statement) :=
  match _start : skip text with
  | [] => some taken.reverse
  | c :: rest =>
    if c == '#' then
      match endOfLine (rest.dropWhile isPlain) with
      | some ⟨tail, _⟩ => statements taken tail
      | none => none
    else
      match newline? (c :: rest) with
      | some ⟨tail, _⟩ => statements taken tail
      | none =>
        match statement (c :: rest) with
        | none => none
        | some (s, ⟨rest', _⟩) =>
          match endOfLine rest' with
          | some ⟨tail, _⟩ => statements (s :: taken) tail
          | none => none
termination_by text.length
decreasing_by
  · have := length_lt_of_skip _start
    have := Reader.length_dropWhile_le isPlain rest
    omega
  all_goals
    have := length_lt_of_skip _start
    simp_all only [List.length_cons]
    omega

/-- The outermost table of a document; none if the text is not TOML. A mark of
the byte order in front is passed over. -/
def read? (text : String) : Option Members :=
  let text := match text.toList with
    | '\uFEFF' :: rest => rest
    | text => text
  (statements [] text).bind ofStatements

end Graticule.Toml
