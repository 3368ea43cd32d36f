import Schemata.Yaml.Node.Reader
import Schemata.Yaml.Resolution

/-!
# From nodes to values

Aliases are followed and tags and plain scalars are resolved.  Collections may be nested 128 levels
deep, an alias counting as what it stands for, and a document may follow so many aliases as a
hundredfold of its size allows; so a document that refers to itself has no value.
-/

namespace Schemata.Yaml

/-- A step that may fail, with the number of aliases that may still be followed. -/
abbrev Construction := StateT Nat Option

/-- A local tag without its exclamation mark, and without a second one unless that is all. -/
def localName? (tag : Option String) : Option String :=
  match tag.map String.toList with
  | some ('!' :: '!' :: d :: rest) => some (String.ofList (d :: rest))
  | some ('!' :: rest) => some (String.ofList rest)
  | _ => none

/-- The target of an alias, and every other node itself. -/
def Document.follow (d : Document) : Node → Construction Node
  | .reference n => do
    match ← get with
    | 0 => failure
    | left + 1 =>
      set left
      match d.target? n with
      | some node => return node
      | none => failure
  | node => return node

/-- Appends an entry; no two keys may be equal. -/
def addEntry (entries : List (Value × Value)) (key value : Value) :
    Construction (List (Value × Value)) :=
  if entries.any fun (k, _) => k.equal key then failure else return entries ++ [(key, value)]

/-- The value of a node, at most so many levels deep.  A local tag is the tag of the value, and
inside it the node's own tag no longer counts; the flag says that this is so. -/
def Document.construct (d : Document) : Nat → Bool → Node → Construction Value
  | levels, tagged, node => do
    let target ← d.follow node
    let tagged := tagged && !node matches .reference _
    let name := if tagged then none else localName? target.label.tag
    let tagged := tagged || name.isSome
    let value ← match target, levels with
      | .scalar label text style, _ =>
        match resolveScalar? (if tagged then none else label.tag) style text with
        | some v => pure v
        | none => failure
      | .sequence _ items, levels + 1 =>
        Value.sequence <$> items.mapM (d.construct levels false)
      | .mapping _ entries, levels + 1 => do
        let entries ← entries.foldlM (fun done (k, v) => do
          let key ← d.construct levels tagged k
          let value ← d.construct levels false v
          addEntry done key value) []
        pure (.mapping entries)
      | _, _ => failure
    match name with
    | some name => if name = "" then failure else return .tagged name value
    | none => return value

/-- How deep collections may be nested. -/
def depthLimit : Nat := 128

/-- The value of a document; one without content is null. -/
def Document.value? (d : Document) : Option Value :=
  match d.root with
  | some node => ((d.construct depthLimit false node).run (100 * d.weight)).map (·.1)
  | none => some .null

/-- The value of a text. -/
def Value.ofText? (text : String) : Option Value := do
  (← Document.ofText? text).value?

end Schemata.Yaml
