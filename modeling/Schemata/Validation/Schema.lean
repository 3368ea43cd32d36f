import Schemata.Grammar

/-!
# Schemas as the validator sees them

A schema document is read once into a tree of nodes.  Every node has its declared type, if that
is recognised, its facets, and its child schemas; facets of the wrong kind count as absent.  A
value that is no object becomes a node that accepts everything.
-/

namespace Schemata.Validation

open Json (Members Number Value)

/-- Everything a node says besides its type and its children. -/
structure Facets where
  required : Bool
  pattern : Option String
  minLength : Option Nat
  maxLength : Option Nat
  minimum : Option Number
  maximum : Option Number
  allowed : Option (List Value)
  minItems : Option Nat
  maxItems : Option Nat
  uniqueItems : Bool
  additional : Option Bool
  deriving Repr

namespace Facets

/-- `required` is read for truth: zero, the empty string, `"0"`, the empty list and null are not
true. -/
def isTrue : Value → Bool
  | .null => false
  | .bool b => b
  | .number n => !n.toBinary64.isZero
  | .string s => s != "" && s != "0"
  | .array items => !items.isEmpty
  | .object _ => true

/-- A limit is a whole number that is not negative; floats stop at the greatest 64-bit number. -/
def limit? : Value → Option Nat
  | .number (.whole n _) => if 0 ≤ n then some n.toNat else none
  | .number (.float x) =>
    if x.isWhole && (!x.negative || x.isZero) then some (min x.wholeMagnitude 18446744073709551615)
    else none
  | _ => none

/-- The text of a string. -/
def text? : Value → Option String
  | .string s => some s
  | _ => none

/-- A number. -/
def number? : Value → Option Number
  | .number n => some n
  | _ => none

/-- The items of an array. -/
def items? : Value → Option (List Value)
  | .array items => some items
  | _ => none

/-- What a node says about keys that it does not declare: nothing, if it is absent or null. -/
def additional? : Value → Option Bool
  | .null => none
  | .bool b => some b
  | _ => some true

/-- The facets that a node's members declare. -/
def ofMembers (members : Members) : Facets where
  required := ((Members.find? "required" members).map isTrue).getD false
  pattern := (Members.find? "pattern" members).bind text?
  minLength := (Members.find? "minLength" members).bind limit?
  maxLength := (Members.find? "maxLength" members).bind limit?
  minimum := (Members.find? "minimum" members).bind number?
  maximum := (Members.find? "maximum" members).bind number?
  allowed := (Members.find? "enum" members).bind items?
  minItems := (Members.find? "minItems" members).bind limit?
  maxItems := (Members.find? "maxItems" members).bind limit?
  uniqueItems :=
    match Members.find? "uniqueItems" members with
    | some (.bool b) => b
    | _ => false
  additional := (Members.find? "additionalProperties" members).bind additional?

end Facets

/-- The schemas of an array's items: none, one for all, or one for each position. -/
inductive Items (α : Type) where
  | free
  | each (schema : α)
  | tuple (schemas : List α)
  deriving Repr

/-- A schema node with its children. -/
inductive Schema where
  | node (decl : Option TypeDecl) (facets : Facets) (properties : List (String × Schema))
      (items : Items Schema)

namespace Schema

/-- The node that accepts everything. -/
def free : Schema :=
  node none (Facets.ofMembers []) [] .free

instance : Inhabited Schema := ⟨free⟩

/-- The facets of a node. -/
def facets : Schema → Facets
  | node _ f _ _ => f

/-- The type that a node's members declare, if it is recognised. -/
def declaration? (members : Members) : Option TypeDecl :=
  (Members.find? "type" members).bind fun v => (TypeDecl.ofValue v).toOption

mutual

/-- The schema that a value describes. -/
def ofValue : Value → Schema
  | .object members =>
    node (declaration? members) (Facets.ofMembers members) (propertiesOf members)
      (itemsOf members)
  | _ => free

/-- The schemas under the first `properties` of a node, if that is an object. -/
def propertiesOf : List (String × Value) → List (String × Schema)
  | [] => []
  | (key, .object children) :: rest =>
    if key = "properties" then childrenOf children else propertiesOf rest
  | (key, _) :: rest => if key = "properties" then [] else propertiesOf rest

/-- The schemas of named children. -/
def childrenOf : List (String × Value) → List (String × Schema)
  | [] => []
  | (name, v) :: rest => (name, ofValue v) :: childrenOf rest

/-- The schemas under the first `items` of a node. -/
def itemsOf : List (String × Value) → Items Schema
  | [] => .free
  | (key, .array schemas) :: rest =>
    if key = "items" then .tuple (tupleOf schemas) else itemsOf rest
  | (key, v) :: rest => if key = "items" then .each (ofValue v) else itemsOf rest

/-- The schemas of a list. -/
def tupleOf : List Value → List Schema
  | [] => []
  | v :: rest => ofValue v :: tupleOf rest

end

end Schema
end Schemata.Validation
