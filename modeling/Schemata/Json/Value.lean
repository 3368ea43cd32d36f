import Schemata.Json.Number

/-!
# JSON values

An object is the list of its members in document order.  `Members` has the operations that keep
that order visible: `set` replaces a value in place or appends, `addMissing` only appends, and
`swapErase` closes the gap of an erased member with the last one.
-/

namespace Schemata.Json

/-- A JSON value; the members of an object are in document order. -/
inductive Value where
  | null
  | bool (b : Bool)
  | number (n : Number)
  | string (s : String)
  | array (items : List Value)
  | object (members : List (String × Value))
  deriving Repr, Inhabited

/-- The members of an object in document order. -/
abbrev Members := List (String × Value)

namespace Members

/-- The keys in document order. -/
def keys (members : Members) : List String :=
  members.map (·.1)

/-- The value under a key. -/
def find? (key : String) : Members → Option Value
  | [] => none
  | (k, v) :: rest => if k = key then some v else find? key rest

/-- Some member has the key. -/
def has (key : String) (members : Members) : Bool :=
  (Members.find? key members).isSome

/-- The value is put in place of the key's old one, or behind all members. -/
def set (key : String) (value : Value) : Members → Members
  | [] => [(key, value)]
  | (k, v) :: rest => if k = key then (k, value) :: rest else (k, v) :: set key value rest

/-- The member is appended unless the key is present. -/
def addMissing (members : Members) (key : String) (value : Value) : Members :=
  if Members.has key members then members else members ++ [(key, value)]

/-- Erases a key; the last member moves into the gap. -/
def swapErase (key : String) : Members → Members
  | [] => []
  | (k, v) :: rest =>
    if k = key then
      match rest.getLast? with
      | none => []
      | some last => last :: rest.dropLast
    else (k, v) :: swapErase key rest

/-- A duplicate key keeps its first position and takes its last value. -/
def ofList (members : List (String × Value)) : Members :=
  members.foldl (fun done (key, value) => Members.set key value done) []

end Members

namespace Value

/-- The members of an object. -/
def members? : Value → Option Members
  | object members => some members
  | _ => none

/-- The text of a string. -/
def string? : Value → Option String
  | string s => some s
  | _ => none

/-- The member of an object under a key. -/
def member? (key : String) : Value → Option Value
  | object members => Members.find? key members
  | _ => none

mutual

/-- Every object keeps, of several members with one key, the first position and the last value. -/
def mergeDuplicates : Value → Value
  | array items => array (mergeItems items)
  | object members => object (Members.ofList (mergeMembers members))
  | v => v

/-- `mergeDuplicates` on every item. -/
def mergeItems : List Value → List Value
  | [] => []
  | v :: rest => mergeDuplicates v :: mergeItems rest

/-- `mergeDuplicates` on the value of every member. -/
def mergeMembers : List (String × Value) → List (String × Value)
  | [] => []
  | (k, v) :: rest => (k, mergeDuplicates v) :: mergeMembers rest

end

end Value
end Schemata.Json
