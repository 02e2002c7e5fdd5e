import Lindenmayer.Text.CodePoint

/-!
# Documents

A document is a tree of values. Whole numbers and floating-point numbers are different kinds, whole
numbers have no bound, and the members of an object keep their order.
-/

namespace Lindenmayer

/-- A value with the values inside it. -/
inductive Document where
  | null
  | bool (value : Bool)
  | integer (value : Int)
  | number (value : Float)
  | string (text : Text)
  | array (items : List Document)
  | object (members : List (Text × Document))

namespace Document

/-- Give a member its value. A member that is there already keeps its place. -/
def put : List (Text × Document) → Text → Document → List (Text × Document)
  | [], name, value => [(name, value)]
  | (known, old) :: rest, name, value =>
      if known = name then (known, value) :: rest
      else (known, old) :: put rest name value

/-- The object of some members in order; of two with one name the last value counts. -/
def ofMembers (members : List (Text × Document)) : Document :=
  .object (members.foldl (fun object member => put object member.1 member.2) [])

/-- Arrays and objects are the values with values inside them. -/
def isContainer : Document → Bool
  | .array _ | .object _ => true
  | _ => false

end Document

end Lindenmayer
