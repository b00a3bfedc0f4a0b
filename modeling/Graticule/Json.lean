/-!
# JSON values

A JSON value as a text holds it: an object is the list of its members in the
order they were written, repeated keys included. `canonical` is the value such
an object means, with its members in the order of their keys and the last of
several members of one key standing for all.

Whole numbers and doubles are different numbers: `1` and `1.0` are not equal.
-/

namespace Graticule

/-- A number is whole, and then exact, or a double. -/
inductive JsonNumber where
  | whole (value : Int)
  | real (value : Float)
deriving Repr

/-- A JSON value. -/
inductive Json where
  | null
  | boolean (value : Bool)
  | number (value : JsonNumber)
  | string (value : String)
  | array (elements : List Json)
  | object (members : List (String × Json))
deriving Inhabited

/-- The properties of a feature: members with different keys, in the order of
their keys. -/
abbrev Properties := List (String × Json)

instance : BEq JsonNumber where
  beq
    | .whole a, .whole b => a == b
    | .real a, .real b => a == b
    | _, _ => false

/-- The double a number stands for; a whole one is rounded to the nearest. -/
def JsonNumber.toFloat : JsonNumber → Float
  | .whole n => if n < 0 then -Float.ofNat n.natAbs else Float.ofNat n.natAbs
  | .real x => x

namespace Json

mutual

/-- Values are equal when they have the same shape and equal leaves. -/
def beq : Json → Json → Bool
  | null, null => true
  | boolean a, boolean b => a == b
  | number a, number b => a == b
  | string a, string b => a == b
  | array as, array bs => elementsBeq as bs
  | object as, object bs => membersBeq as bs
  | _, _ => false

/-- Equality of arrays, element by element. -/
def elementsBeq : List Json → List Json → Bool
  | [], [] => true
  | a :: as, b :: bs => beq a b && elementsBeq as bs
  | _, _ => false

/-- Equality of objects, member by member. -/
def membersBeq : List (String × Json) → List (String × Json) → Bool
  | [], [] => true
  | (k, a) :: as, (l, b) :: bs => k == l && beq a b && membersBeq as bs
  | _, _ => false

end

instance : BEq Json := ⟨beq⟩

/-- Puts a member in its place among members ordered by key, over one that has
its key already. -/
def insertMember (key : String) (value : Json) :
    List (String × Json) → List (String × Json)
  | [] => [(key, value)]
  | (k, v) :: rest =>
    if key < k then (key, value) :: (k, v) :: rest
    else if key == k then (key, value) :: rest
    else (k, v) :: insertMember key value rest

/-- Members in the order of their keys, the last of several with one key
standing for all. -/
def sortMembers (members : List (String × Json)) : List (String × Json) :=
  members.foldl (fun sorted m => insertMember m.1 m.2 sorted) []

mutual

/-- The value with every object's members in order and without repetition. -/
def canonical : Json → Json
  | array elements => array (canonicalElements elements)
  | object members => object (sortMembers (canonicalMembers members))
  | leaf => leaf

/-- Every element in canonical form. -/
def canonicalElements : List Json → List Json
  | [] => []
  | e :: rest => canonical e :: canonicalElements rest

/-- Every member's value in canonical form. -/
def canonicalMembers : List (String × Json) → List (String × Json)
  | [] => []
  | (k, v) :: rest => (k, canonical v) :: canonicalMembers rest

end

/-- The member of an object with this key. -/
def member? (key : String) : Json → Option Json
  | object members => members.lookup key
  | _ => none

end Json

end Graticule
