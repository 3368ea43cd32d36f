import Schemata.Json.Printer

/-!
# The schema grammar

A fixed vocabulary of types, the keys that a node of each type may declare, and the declarations
of a node's type: one type, or a list of types of which a value needs to satisfy one.
-/

namespace Schemata

/-- The types of the vocabulary. -/
inductive SchemaType where
  | string
  | number
  | integer
  | boolean
  | object
  | array
  | any
  | null
  deriving DecidableEq, Repr

namespace SchemaType

/-- The vocabulary in the order of the grammar. -/
def all : List SchemaType :=
  [string, number, integer, boolean, object, array, any, null]

/-- The name of a type in schema documents. -/
def name : SchemaType → String
  | string => "string"
  | number => "number"
  | integer => "integer"
  | boolean => "boolean"
  | object => "object"
  | array => "array"
  | any => "any"
  | null => "null"

/-- The type with a name. -/
def ofName? (text : String) : Option SchemaType :=
  all.find? fun t => t.name == text

/-- The type of a node that declares and inherits none. -/
def default : SchemaType := any

/-- Keys that every node may declare. -/
def universalKeys : List String :=
  ["type", "required", "id", "value"]

/-- Keys that a node of this type may declare besides the universal ones. -/
def specificKeys : SchemaType → List String
  | string =>
    ["pattern", "minLength", "maxLength", "enum", "description", "extends", "id", "format"]
  | number => ["minimum", "maximum", "enum", "description", "extends", "id"]
  | integer => ["minimum", "maximum", "enum", "description", "extends", "id"]
  | boolean => ["description", "extends", "id"]
  | object => ["properties", "additionalProperties", "description", "extends", "id"]
  | array => ["items", "minItems", "maxItems", "description", "extends", "id", "uniqueItems"]
  | any => ["description", "extends", "id", "properties"]
  | null => []

/-- All keys that a node of this type may declare. -/
def allowedKeys (t : SchemaType) : List String :=
  t.specificKeys ++ universalKeys

/-- A node of this type may declare the key. -/
def allows (t : SchemaType) (key : String) : Bool :=
  universalKeys.contains key || t.specificKeys.contains key

end SchemaType

/-- The declared type of a node. -/
inductive TypeDecl where
  | single (type : SchemaType)
  | union (members : List SchemaType)
  deriving DecidableEq, Repr

namespace TypeDecl

/-- The types of which a value needs to satisfy one. -/
def members : TypeDecl → List SchemaType
  | single t => [t]
  | union ts => ts

/-- Some member allows the key. -/
def allows (d : TypeDecl) (key : String) : Bool :=
  d.members.any (·.allows key)

/-- The names of the members. -/
def text (d : TypeDecl) : String :=
  String.intercalate ", " (d.members.map SchemaType.name)

/-- The type that a value names, or what it says instead: the text of a string, the JSON text of
any other value. -/
def ofName (value : Json.Value) : Except String SchemaType :=
  match value with
  | .string s =>
    match SchemaType.ofName? s with
    | some t => .ok t
    | none => .error s
  | v => .error v.compact

/-- The types that all values of a list name, or the first that names none. -/
def ofNames : List Json.Value → Except String (List SchemaType)
  | [] => .ok []
  | v :: rest =>
    match ofName v with
    | .error e => .error e
    | .ok t => (ofNames rest).map (t :: ·)

/-- The declaration that a value makes: one name, or a list of at least one. -/
def ofValue (value : Json.Value) : Except String TypeDecl :=
  match value with
  | .array [] => .error "[]"
  | .array items => (ofNames items).map union
  | v => (ofName v).map single

end TypeDecl
end Schemata
