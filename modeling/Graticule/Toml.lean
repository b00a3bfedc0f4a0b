/-!
# TOML documents

A TOML document is a sequence of statements: a header opens a table, or one
more element of an array of tables, and every member after it goes into the
table that is open. A name in front of a header or a member may be a path, and
a path makes the tables on it that are not there yet.

What may be done to a table later depends on how it came to be. One implied by
the path of a header may still be opened by a header of its own. One implied by
the dotted name of a member may be extended by other dotted names, but not
opened. One that has been opened, or written inline, is not opened again, and
an inline one is closed for good. Nothing is given twice.
-/

namespace Graticule

/-- How a table came to be. -/
inductive Toml.Origin where
  /-- It is on the path of a header. -/
  | implied
  /-- It is on the path of a member. -/
  | dotted
  /-- It has a header. -/
  | opened
  /-- It stands between braces. -/
  | inline
deriving DecidableEq, Repr

/-- A value of a document. Dates and times are told apart from other values but
not looked into. -/
inductive Toml where
  | string (value : String)
  | integer (value : Int)
  | float (value : Float)
  | boolean (value : Bool)
  | moment
  | array (elements : List Toml)
  | table (origin : Toml.Origin) (members : List (String × Toml))
  | tables (elements : List (List (String × Toml)))

namespace Toml

/-- The members of a table. -/
abbrev Members := List (String × Toml)

/-- A name with a path of tables in front of it. -/
structure Key where
  /-- The tables on the way. -/
  path : List String
  /-- The name. -/
  name : String
deriving DecidableEq, Repr

/-- A statement of a document. -/
inductive Statement where
  /-- Opens a table. -/
  | header (key : Key)
  /-- Opens one more element of an array of tables. -/
  | element (key : Key)
  /-- Adds a member to the open table. -/
  | member (key : Key) (value : Toml)

/-- The members with one of them set, in its place or at the end. -/
def set (name : String) (value : Toml) : Members → Members
  | [] => [(name, value)]
  | (n, v) :: rest =>
    if n = name then (n, value) :: rest else (n, v) :: set name value rest

/-- Changes the members of the table at the end of a path, from a table down.
Tables that are not there yet are made on the way, and of an array of tables
the last element is taken. The path of a member does not lead through a table
that has been opened. -/
def alter (byMember : Bool) (change : Origin → Members → Option Members) :
    (path : List String) → Origin → Members → Option Members
  | [], origin, members => change origin members
  | name :: path, _, members => do
    let child ← match members.lookup name with
      | none =>
        let origin := if byMember then Origin.dotted else Origin.implied
        table origin <$> alter byMember change path origin []
      | some (table origin inner) =>
        if origin = .inline || (byMember && origin = .opened) then none
        else table origin <$> alter byMember change path origin inner
      | some (tables elements) => do
        let last ← elements.getLast?
        let last ← alter byMember change path .opened last
        some (tables (elements.dropLast ++ [last]))
      | some _ => none
    some (set name child members)

/-- Adds a member to a table. At the end of a path there has to be a table that
such paths have made. -/
def add (members : Members) (key : Key) (value : Toml) : Option Members :=
  alter true
    (fun origin inner =>
      if (!key.path.isEmpty && origin ≠ .dotted)
          || (inner.lookup key.name).isSome then none
      else some (set key.name value inner))
    key.path .opened members

/-- A table written inline. -/
def inlineTable (members : List (Key × Toml)) : Option Toml :=
  table .inline <$> members.foldlM (fun table m => add table m.1 m.2) []

/-- A document as far as it has been read. -/
structure Draft where
  /-- The outermost table. -/
  root : Members := []
  /-- The path to the open table. -/
  here : List String := []

/-- Opens a table at the end of a path, where `enter` says what becomes of the
member of its name. -/
def Draft.descend (d : Draft) (key : Key) (enter : Option Toml → Option Toml) :
    Option Draft := do
  let root ← alter false
    (fun _ members => do
      let child ← enter (members.lookup key.name)
      some (set key.name child members))
    key.path .opened d.root
  some ⟨root, key.path ++ [key.name]⟩

/-- The document after one more statement. -/
def Draft.step (d : Draft) : Statement → Option Draft
  | .header key =>
    d.descend key fun
      | none => some (.table .opened [])
      | some (.table .implied members) => some (.table .opened members)
      | some _ => none
  | .element key =>
    d.descend key fun
      | none => some (.tables [[]])
      | some (.tables elements) => some (.tables (elements ++ [[]]))
      | some _ => none
  | .member key value => do
    let root ← alter false (fun _ members => add members key value)
      d.here .opened d.root
    some { d with root }

/-- The outermost table of the document these statements make up. -/
def ofStatements (statements : List Statement) : Option Members :=
  Draft.root <$> statements.foldlM Draft.step {}

end Toml

end Graticule
