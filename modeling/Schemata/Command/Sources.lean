import Schemata.Command.Run

/-!
# What a run may look at

The names whose documents and cached schemas a run may read: the schema asked for, and what the
documents read so far refer to at any depth.
-/

namespace Schemata.Command

open Json (Members)

/-- The references in the value of a key, if the key holds any. -/
def referencesUnder (key : String) (v : Json.Value) : List String :=
  if key = "extends" then
    match v with
    | .string s => [s]
    | .array items => items.filterMap Json.Value.string?
    | _ => []
  else []

mutual

/-- All references inside a value, also where a schema could not have them. -/
def references : Json.Value → List String
  | .array items => itemReferences items
  | .object members => memberReferences members
  | _ => []

/-- The references inside the items of an array. -/
def itemReferences : List Json.Value → List String
  | [] => []
  | v :: rest => references v ++ itemReferences rest

/-- The references inside the members of an object. -/
def memberReferences : Members → List String
  | [] => []
  | (k, v) :: rest => referencesUnder k v ++ references v ++ memberReferences rest

end

/-- The normal names that a document refers to. -/
def namesFrom (name : String) (bytes : ByteArray) : List String :=
  match (String.fromUTF8? bytes).map Json.Value.read with
  | some (.ok v) => (references v).map fun reference =>
      Name.normalize (Registry.relative reference (Name.directory name))
  | _ => []

/-- The schema that an action is about. -/
def Action.schemaName : Action → String
  | build name _ => name
  | validate _ schema _ => schema

/-- The file that an action reads besides schemas. -/
def Action.source? : Action → Option String
  | build _ _ => none
  | validate source _ _ => if source = standardInput then none else some source

/-- The file of a document. -/
def documentPath (s : Settings) (name : String) : Path :=
  DirectoryStore.keyPath (.ofText s.schemaDirectory) name

/-- The file of a cached schema, if there is a cache. -/
def cachePath? (s : Settings) (name : String) : Option Path :=
  s.cacheDirectory.map fun directory =>
    DirectoryStore.keyPath (.ofText directory) (cacheKey name)

end Schemata.Command
