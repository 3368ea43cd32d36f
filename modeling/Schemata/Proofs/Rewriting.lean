import Schemata.Proofs.Json.Reordered
import Schemata.Proofs.Position

/-!
# Rewriting all nodes of a tree

`Node.mapNodes rule` applies a rule for the members of one node at every node position of a tree,
and leaves all else as it is.
-/

namespace Schemata
namespace Node

open Json (Members Value Reordered)

mutual

/-- The value with the rule applied at its node positions, from the leaves on. -/
def mapNodes (rule : Members → Members) : Value → Value
  | .object node => .object (rule (mapParts rule node))
  | v => v

/-- The members of a node with the rule applied at the node positions below. -/
def mapParts (rule : Members → Members) : List (String × Value) → List (String × Value)
  | [] => []
  | (key, v) :: rest => (key, mapPart rule key v) :: mapParts rule rest

/-- The value under a key of a node with the rule applied at the node positions in it. -/
def mapPart (rule : Members → Members) (key : String) : Value → Value
  | .object members =>
    if key = "properties" then .object (mapChildren rule members)
    else if key = "items" then .object (rule (mapParts rule members))
    else .object members
  | .array items => if key = "items" then .array (mapTuple rule items) else .array items
  | v => v

/-- The rule applied at the node positions in each named child. -/
def mapChildren (rule : Members → Members) : List (String × Value) → List (String × Value)
  | [] => []
  | (name, v) :: rest => (name, mapNodes rule v) :: mapChildren rule rest

/-- The rule applied at the node positions in each value of a list. -/
def mapTuple (rule : Members → Members) : List Value → List Value
  | [] => []
  | v :: rest => mapNodes rule v :: mapTuple rule rest

end

variable {rule : Members → Members} {node : Members} {key : String} {v : Value}

theorem mapParts_eq_map :
    mapParts rule node = node.map fun entry => (entry.1, mapPart rule entry.1 entry.2) := by
  induction node with
  | nil => rfl
  | cons entry rest ih => rw [mapParts, ih, List.map_cons]

theorem mapChildren_eq_map (children : Members) :
    mapChildren rule children = children.map fun entry => (entry.1, mapNodes rule entry.2) := by
  induction children with
  | nil => rfl
  | cons entry rest ih => rw [mapChildren, ih, List.map_cons]

theorem mapTuple_eq_map (tuple : List Value) : mapTuple rule tuple = tuple.map (mapNodes rule) := by
  induction tuple with
  | nil => rfl
  | cons v rest ih => rw [mapTuple, ih, List.map_cons]

@[simp] theorem keys_mapParts : Members.keys (mapParts rule node) = Members.keys node := by
  rw [mapParts_eq_map, Members.keys, List.map_map]
  rfl

theorem find?_mapParts :
    Members.find? key (mapParts rule node) = (Members.find? key node).map (mapPart rule key) := by
  induction node with
  | nil => rfl
  | cons entry rest ih =>
    obtain ⟨k, v⟩ := entry
    rw [mapParts, Members.find?_cons, Members.find?_cons, ih]
    split
    · case isTrue hkey => rw [hkey, Option.map_some]
    · rfl

theorem uniqueKeys_mapParts (hu : Members.UniqueKeys node) :
    Members.UniqueKeys (mapParts rule node) := by
  unfold Members.UniqueKeys
  rwa [keys_mapParts]

theorem mapPart_of_ne (hprops : key ≠ "properties") (hitems : key ≠ "items") :
    mapPart rule key v = v := by
  cases v <;> simp [mapPart, hprops, hitems]

theorem find?_mapParts_of_ne (hprops : key ≠ "properties") (hitems : key ≠ "items") :
    Members.find? key (mapParts rule node) = Members.find? key node := by
  rw [find?_mapParts]
  cases Members.find? key node with
  | none => rfl
  | some v => rw [Option.map_some, mapPart_of_ne hprops hitems]

theorem mapPart_properties (children : Members) :
    mapPart rule "properties" (.object children) =
      .object (children.map fun entry => (entry.1, mapNodes rule entry.2)) := by
  rw [← mapChildren_eq_map, mapPart, if_pos rfl]

theorem mapPart_tuple (tuple : List Value) :
    mapPart rule "items" (.array tuple) = .array (tuple.map (mapNodes rule)) := by
  rw [← mapTuple_eq_map, mapPart, if_pos rfl]

theorem mapPart_items (htuple : ∀ tuple, v ≠ .array tuple) :
    mapPart rule "items" v = mapNodes rule v := by
  cases v with
  | array tuple => exact absurd rfl (htuple tuple)
  | object members => simp [mapPart, mapNodes]
  | _ => simp [mapPart, mapNodes]

theorem mapParts_addMissing :
    mapParts rule (Members.addMissing node key v) =
      Members.addMissing (mapParts rule node) key (mapPart rule key v) := by
  have hhas : Members.has key (mapParts rule node) = Members.has key node := by
    rw [Members.has, find?_mapParts, Option.isSome_map, Members.has]
  unfold Members.addMissing
  rw [hhas]
  split
  · rfl
  · rw [mapParts_eq_map, mapParts_eq_map, List.map_append]
    rfl

theorem find?_mapChildren {children : Members} {name : String} :
    Members.find? name (mapChildren rule children) =
      (Members.find? name children).map (mapNodes rule) := by
  induction children with
  | nil => rfl
  | cons entry rest ih =>
    rw [mapChildren, Members.find?_cons, Members.find?_cons, ih]
    split <;> rfl

theorem mapChildren_set {children : Members} {name : String} :
    mapChildren rule (Members.set name v children) =
      Members.set name (mapNodes rule v) (mapChildren rule children) := by
  induction children with
  | nil => rfl
  | cons entry rest ih =>
    rw [Members.set, mapChildren, Members.set]
    split
    · rfl
    · rw [mapChildren, ih]

/-! ## Rules without an effect -/

theorem map_eq_self {α : Type} {f : α → α} {xs : List α} (h : ∀ x ∈ xs, f x = x) :
    xs.map f = xs :=
  (List.map_congr_left h).trans (List.map_id xs)

theorem mapPart_eq_self (hbelow : ∀ part, Part node part → mapNodes rule part = part)
    (hfind : Members.find? key node = some v) : mapPart rule key v = v := by
  by_cases hprops : key = "properties"
  · subst hprops
    cases v with
    | object children =>
      rw [mapPart_properties, Value.object.injEq]
      refine map_eq_self fun entry hentry => ?_
      rw [hbelow entry.2 (.property hfind hentry)]
    | _ => simp [mapPart]
  · by_cases hitems : key = "items"
    · subst hitems
      cases v with
      | array tuple =>
        rw [mapPart_tuple, Value.array.injEq]
        exact map_eq_self fun item hitem => hbelow item (.tupleItem hfind hitem)
      | _ =>
        rw [mapPart_items (by simp)]
        exact hbelow _ (.item hfind (by simp))
    · exact mapPart_of_ne hprops hitems

theorem mapParts_eq_self (hu : Members.UniqueKeys node)
    (hbelow : ∀ part, Part node part → mapNodes rule part = part) : mapParts rule node = node := by
  rw [mapParts_eq_map]
  refine map_eq_self fun entry hentry => ?_
  rw [mapPart_eq_self hbelow (Members.find?_of_mem hu hentry)]

/-- A rule that leaves every node of a tree as it is leaves the tree as it is. -/
theorem mapNodes_eq_self (hu : v.Unique)
    (h : ∀ node, Position v (.object node) → rule node = node) : mapNodes rule v = v := by
  induction v using nodeInduction with
  | leaf v hleaf =>
    cases v with
    | object node => exact absurd rfl (hleaf node)
    | _ => rfl
  | node node ih =>
    have hparts : mapParts rule node = node := mapParts_eq_self hu.keys fun part hpart =>
      ih part hpart (hpart.unique hu) fun below hbelow => h below (.inside hpart hbelow)
    rw [mapNodes, hparts, h node (.root _)]

/-! ## Rules that differ in the order of keys -/

/-- The rule changes nothing but the type of a node, and that in a way that depends on the type
alone. -/
structure Retypes (f : Option Value → Option Value) (rule : Members → Members) : Prop where
  unique : ∀ {node}, Members.UniqueKeys node → Members.UniqueKeys (rule node)
  type : ∀ {node}, Members.UniqueKeys node →
    Members.find? "type" (rule node) = f (Members.find? "type" node)
  other : ∀ {node key}, Members.UniqueKeys node → key ≠ "type" →
    Members.find? key (rule node) = Members.find? key node

variable {rule' : Members → Members} {f : Option Value → Option Value}

theorem reordered_mapPart
    (hbelow : ∀ part, Part node part → Reordered (mapNodes rule part) (mapNodes rule' part))
    (hfind : Members.find? key node = some v) :
    Reordered (mapPart rule key v) (mapPart rule' key v) := by
  by_cases hprops : key = "properties"
  · subst hprops
    cases v with
    | object children =>
      rw [mapPart_properties, mapPart_properties]
      refine .members ?_
      rw [List.forall₂_map_left_iff, List.forall₂_map_right_iff, List.forall₂_same]
      exact fun entry hentry => ⟨rfl, hbelow entry.2 (.property hfind hentry)⟩
    | _ => simpa [mapPart] using Reordered.refl _
  · by_cases hitems : key = "items"
    · subst hitems
      cases v with
      | array tuple =>
        rw [mapPart_tuple, mapPart_tuple]
        refine .items ?_
        rw [List.forall₂_map_left_iff, List.forall₂_map_right_iff, List.forall₂_same]
        exact fun item hitem => hbelow item (.tupleItem hfind hitem)
      | _ =>
        rw [mapPart_items (by simp), mapPart_items (by simp)]
        exact hbelow _ (.item hfind (by simp))
    · rw [mapPart_of_ne hprops hitems, mapPart_of_ne hprops hitems]
      exact .refl v

/-- Two rules that retype nodes alike rewrite a tree to trees that are equal up to the order of
keys. -/
theorem reordered_mapNodes (h : Retypes f rule) (h' : Retypes f rule') (hu : v.Unique) :
    Reordered (mapNodes rule v) (mapNodes rule' v) := by
  induction v using nodeInduction with
  | leaf v hleaf =>
    cases v with
    | object node => exact absurd rfl (hleaf node)
    | _ => simpa [mapNodes] using Reordered.refl _
  | node node ih =>
    have hbelow : ∀ part, Part node part → Reordered (mapNodes rule part) (mapNodes rule' part) :=
      fun part hpart => ih part hpart (hpart.unique hu)
    have hparts : ∀ rule, Members.UniqueKeys (mapParts rule node) :=
      fun rule => uniqueKeys_mapParts hu.keys
    rw [mapNodes, mapNodes]
    refine .of_find? (h.unique (hparts rule)) (h'.unique (hparts rule')) fun key => ?_
    by_cases htype : key = "type"
    · subst htype
      rw [h.type (hparts rule), h'.type (hparts rule'),
        find?_mapParts_of_ne (by decide) (by decide), find?_mapParts_of_ne (by decide) (by decide)]
      exact Reordered.rel_refl _
    · rw [h.other (hparts rule) htype, h'.other (hparts rule') htype, find?_mapParts,
        find?_mapParts]
      cases hfind : Members.find? key node with
      | none => exact .none
      | some v => exact .some (reordered_mapPart hbelow hfind)

end Node
end Schemata
