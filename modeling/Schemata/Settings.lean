import Schemata.FileSystem.Basic
import Schemata.Yaml.Construction

/-!
# Settings

Where schemas are read and cached, and how strict validation is.  Settings are read from a YAML
document, in which everything may be left out and unknown fields do not count; overrides come on
top of them.
-/

namespace Schemata

open Yaml (Document Node)

/-- The settings of a run. -/
structure Settings where
  schemaDirectory : String
  cacheDirectory : Option String
  usesCache : Bool
  allowsAdditional : Bool
  deriving DecidableEq, Repr

/-- What is asked for besides the settings. -/
structure Overrides where
  schemaDirectory : Option String
  cacheDirectory : Option String
  noCache : Bool
  deriving DecidableEq, Repr

/-- Why there are no settings. -/
inductive SettingsFault where
  | unreadable
  | malformed
  deriving DecidableEq, Repr

namespace Settings

/-- Without a document, schemas are read from `schemas` and nothing is cached. -/
def default : Settings :=
  ⟨"schemas", none, false, false⟩

/-! ## Fields -/

/-- The node itself, or the target of an alias. -/
def resolve? (d : Document) : Node → Option Node
  | .reference n => d.target? n
  | node => some node

/-- A text, however it is written. -/
def text? (d : Document) (node : Node) : Option String :=
  match resolve? d node with
  | some (.scalar _ text _) => some text
  | _ => none

/-- A text that may be null: a plain scalar without a tag if its text says so, or one with the tag
of null, which has to. -/
def optionalText? (d : Document) (node : Node) : Option (Option String) :=
  match resolve? d node with
  | some (.scalar label text .plain) =>
    match label.tag with
    | none => some (if text = "" || Yaml.isNullWord text then none else some text)
    | some tag =>
      if Yaml.CoreTag.ofText? tag = some .null then
        if Yaml.isNullWord text then some none else none
      else some (some text)
  | some (.scalar _ text _) => some (some text)
  | _ => none

/-- A truth value: a plain scalar with any tag, or a literal one with the tag of truth values. -/
def flag? (d : Document) (node : Node) : Option Bool :=
  match resolve? d node with
  | some (.scalar _ text .plain) => Yaml.readBool? text
  | some (.scalar label text .literal) =>
    if label.tag.bind Yaml.CoreTag.ofText? = some .bool then Yaml.readBool? text else none
  | _ => none

/-- The entries of a mapping, which may be left out altogether. -/
def entries? (d : Document) (node : Node) : Option (List (Node × Node)) :=
  match resolve? d node with
  | some (.mapping _ entries) => some entries
  | some (.scalar _ "" .plain) => some []
  | _ => none

/-- The entries under known names; none of the names may come twice. -/
def fields? (d : Document) (names : List String) :
    List (Node × Node) → Option (List (String × Node))
  | [] => some []
  | (k, v) :: rest => do
    let name ← text? d k
    let others ← fields? d names rest
    if name ∈ names then
      if others.any (·.1 = name) then none else some ((name, v) :: others)
    else some others

/-- The value of a field, or what holds if the field is left out. -/
def fieldOr (fields : List (String × Node)) (name : String) (missing : α)
    (read : Node → Option α) : Option α :=
  match fields.lookup name with
  | some node => read node
  | none => some missing

/-! ## Documents -/

/-- The settings on the registry, put into given ones. -/
def readPlaces? (d : Document) (s : Settings) (node : Node) : Option Settings := do
  let fields ← fields? d ["schema_dir", "cache_dir", "use_cache"] (← entries? d node)
  return { s with
    schemaDirectory := ← fieldOr fields "schema_dir" s.schemaDirectory (text? d)
    cacheDirectory := ← fieldOr fields "cache_dir" s.cacheDirectory (optionalText? d)
    usesCache := ← fieldOr fields "use_cache" s.usesCache (flag? d) }

/-- The settings on validation, put into given ones. -/
def readPolicy? (d : Document) (s : Settings) (node : Node) : Option Settings := do
  let fields ← fields? d ["allow_additional_fields"] (← entries? d node)
  return { s with
    allowsAdditional :=
      ← fieldOr fields "allow_additional_fields" s.allowsAdditional (flag? d) }

/-- The settings of a document. -/
def ofDocument? (d : Document) : Option Settings :=
  match d.root with
  | none => some default
  | some root => do
    let fields ← fields? d ["registry", "validator"] (← entries? d root)
    let s ← fieldOr fields "registry" default (readPlaces? d default)
    fieldOr fields "validator" s (readPolicy? d s)

/-- The settings in the content of a file, if there is one. -/
def load (content : Option (Except FileError ByteArray)) : Except SettingsFault Settings :=
  match content with
  | none => .ok default
  | some (.error _) => .error .unreadable
  | some (.ok bytes) =>
    match String.fromUTF8? bytes with
    | none => .error .unreadable
    | some text =>
      match (Document.ofText? text).bind ofDocument? with
      | some s => .ok s
      | none => .error .malformed

/-- The settings under overrides: a cache directory turns caching on, and what turns it off comes
last. -/
def under (s : Settings) (o : Overrides) : Settings :=
  { s with
    schemaDirectory := o.schemaDirectory.getD s.schemaDirectory
    cacheDirectory := o.cacheDirectory <|> s.cacheDirectory
    usesCache := !o.noCache && (s.usesCache || o.cacheDirectory.isSome) }

end Settings
end Schemata
