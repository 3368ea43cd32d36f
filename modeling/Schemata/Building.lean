import Schemata.Failure
import Schemata.Inheritance

/-!
# Building schema trees

A node is built from the outside in: its `extends` references are merged into it one by one and
forgotten, a missing type becomes `any`, every type must be in the vocabulary and every key must
be allowed for it, and then the nodes under `properties` and `items` are built in the same way.

Where parents come from is left open: `buildNode` takes the function that answers a reference.
Inherited trees are walked like the node's own, so the recursion is bounded by a number of levels;
running out of levels is no answer, and is kept apart from every error.
-/

namespace Schemata

open Json (Members Value)

/-- A computation on stores that answers or fails, and may run out of levels. -/
abbrev Build (σ : Type) := ExceptT SchemaError (StateT σ Option)

namespace Build

/-- The levels ran out. -/
def unfinished : Build σ α :=
  fun _ => none

/-- The computation with its error replaced. -/
def mapError (f : SchemaError → SchemaError) (b : Build σ α) : Build σ α :=
  fun state =>
    match StateT.run (ExceptT.run b) state with
    | none => none
    | some (.ok a, state) => some (.ok a, state)
    | some (.error e, state) => some (.error (f e), state)

/-- An answer or an error that needs no store. -/
def ofExcept (r : Except SchemaError α) : Build σ α :=
  match r with
  | .ok a => pure a
  | .error e => throw e

end Build

namespace Building

/-- A null type counts as absent. -/
def dropNullType (node : Members) : Members :=
  match Members.find? "type" node with
  | some .null => Members.swapErase "type" node
  | _ => node

/-- The references of an `extends` list, which must all be strings. -/
def referenceList (location : Pointer) : List Value → Except SchemaError (List String)
  | [] => .ok []
  | .string s :: rest => (referenceList location rest).map (s :: ·)
  | _ :: _ => .error (.invalidProperty "extends" .extendsShape location)

/-- The references of an `extends` value: one string, or a list of them. -/
def references (location : Pointer) : Value → Except SchemaError (List String)
  | .string s => .ok [s]
  | .array items => referenceList location items
  | _ => .error (.invalidProperty "extends" .extendsShape location)

/-- Merges parents into a node in the order of their references. -/
def inheritAll (parent : String → Build σ Members) : List String → Members → Build σ Members
  | [], node => pure node
  | reference :: rest, node => do
    let inherited ← parent reference
    inheritAll parent rest (extend node inherited)

/-- The node with all its parents merged into it and without its `extends`. -/
def inheritParents (parent : String → Build σ Members) (location : Pointer) (node : Members) :
    Build σ Members := do
  match Members.find? "extends" node with
  | none => pure node
  | some value =>
    let names ← Build.ofExcept (references location value)
    inheritAll parent names (Members.swapErase "extends" node)

/-- The declaration of a node's type. -/
def declaration (location : Pointer) (node : Members) : Except SchemaError TypeDecl :=
  match TypeDecl.ofValue ((Members.find? "type" node).getD .null) with
  | .ok decl => .ok decl
  | .error typeName => .error (.invalidType typeName location)

/-- Every key must be allowed for the declared type. -/
def checkKeys (location : Pointer) (decl : TypeDecl) : Members → Except SchemaError Unit
  | [] => .ok ()
  | (key, _) :: rest =>
    if decl.allows key then checkKeys location decl rest
    else .error (.invalidProperty key (.notAllowed decl) location)

/-- The members of a node before its children are built: parents merged, type declared, keys
checked. -/
def prepare (parent : String → Build σ Members) (location : Pointer) (node : Members) :
    Build σ Members := do
  let merged ← inheritParents parent location (dropNullType node)
  let typed := Members.addMissing merged "type" (.string SchemaType.default.name)
  let decl ← Build.ofExcept (declaration location typed)
  Build.ofExcept (checkKeys location decl typed)
  return typed

/-- The schemas under `properties`, each built in turn. -/
def buildChildren (build : Pointer → Members → Build σ Members) (location : Pointer) :
    Members → Build σ Members
  | [] => pure []
  | (name, .object child) :: rest => do
    let built ← build (location.property name) child
    let others ← buildChildren build location rest
    return (name, .object built) :: others
  | (name, _) :: _ => throw (.invalidProperty name .childShape (location.property name))

/-- The schemas of an `items` list from an index on, each built in turn. -/
def buildTuple (build : Pointer → Members → Build σ Members) (location : Pointer) :
    Nat → List Value → Build σ (List Value)
  | _, [] => pure []
  | index, .object item :: rest => do
    let built ← build (location.item index) item
    let others ← buildTuple build location (index + 1) rest
    return .object built :: others
  | index, _ :: _ => throw (.invalidProperty "items" .itemShape (location.item index))

/-- The node with the schemas under `properties` built. -/
def buildProperties (build : Pointer → Members → Build σ Members) (location : Pointer)
    (node : Members) : Build σ Members := do
  match Members.find? "properties" node with
  | none => pure node
  | some (.object children) =>
    let built ← buildChildren build location children
    return Members.set "properties" (.object built) node
  | some _ => throw (.invalidProperty "properties" .propertiesShape location)

/-- The node with the schemas under `items` built. -/
def buildItems (build : Pointer → Members → Build σ Members) (location : Pointer)
    (node : Members) : Build σ Members := do
  match Members.find? "items" node with
  | none => pure node
  | some (.object item) =>
    let built ← build location.items item
    return Members.set "items" (.object built) node
  | some (.array tuple) =>
    let built ← buildTuple build location 0 tuple
    return Members.set "items" (.array built) node
  | some _ => throw (.invalidProperty "items" .itemsShape location)

/-- Builds a node and everything below it, down to the given number of levels. -/
def buildNode (parent : String → Build σ Members) : Nat → Pointer → Members → Build σ Members
  | 0, _, _ => Build.unfinished
  | levels + 1, location, node => do
    let prepared ← prepare parent location node
    let withProperties ← buildProperties (buildNode parent levels) location prepared
    buildItems (buildNode parent levels) location withProperties

end Building
end Schemata
