import Schemata.Json.Value

/-!
# Inheritance

`extend node inherited` fills in what the node does not declare itself.  Under `properties` the
same holds once more for every name that both declare; a property that only the parent declares
is adopted as a whole.
-/

namespace Schemata

open Json (Members Value)

namespace Inheritance

/-- The node's members, followed by those of the parent whose keys it lacks. -/
def fill (node parent : Members) : Members :=
  parent.foldl (fun done (key, value) => Members.addMissing done key value) node

/-- The properties of a node with one property of its parent. -/
def mergeProperty (own : Members) (name : String) (inherited : Value) : Members :=
  match Members.find? name own with
  | none => own ++ [(name, inherited)]
  | some (.object mine) =>
    match inherited with
    | .object theirs => Members.set name (.object (fill mine theirs)) own
    | _ => own
  | some _ => own

/-- The properties of a node with all those of its parent. -/
def mergeProperties (own parent : Members) : Members :=
  parent.foldl (fun done (name, value) => mergeProperty done name value) own

end Inheritance

open Inheritance

/-- The node with everything that it inherits. -/
def extend (node inherited : Members) : Members :=
  let filled := fill node (Members.swapErase "properties" inherited)
  match Members.find? "properties" inherited with
  | none => filled
  | some parent =>
    match Members.find? "properties" filled with
    | none => filled ++ [("properties", parent)]
    | some (.object own) =>
      match parent with
      | .object theirs => Members.set "properties" (.object (mergeProperties own theirs)) filled
      | _ => filled
    | some _ => filled

end Schemata
