import Schemata.Proofs.Building.Success

/-!
# Which declaration counts

The parents of a node are merged into it one by one, and nothing that is there already is
replaced.  So a key of the built node is the node's own or comes from the first parent that has it.
The same holds for the keys of a schema under `properties`, as long as that schema names no parents
itself.

The tree of a parent is known to hold only schemas under `properties`.  Of the node this follows
from the success of its build, since what is no schema stays there while parents are merged.
-/

namespace Schemata

open Json (Members Value)

/-- The keys that a build looks into: the type, the children and the parents. -/
def buildKeys : List String :=
  ["type", "properties", "items", "extends"]

namespace Node

open Inheritance

variable {own parent node : Members} {name key : String}

/-- What the schema of a property has under a key. -/
def propertyKey? (name key : String) (node : Members) : Option Value :=
  match property? name node with
  | some (.object child) => Members.find? key child
  | _ => none

/-- Under `properties` are schemas by name. -/
structure Shaped (node : Members) : Prop where
  properties : ∀ v, Members.find? "properties" node = some v → ∃ children, v = .object children
  entries : ∀ name v, property? name node = some v → ∃ child, v = .object child

theorem propertyKey?_congr {other : Members}
    (h : Members.find? "properties" other = Members.find? "properties" node) :
    propertyKey? name key other = propertyKey? name key node := by
  unfold propertyKey?
  rw [property?_congr h]

theorem Shaped.congr {other : Members}
    (h : Members.find? "properties" other = Members.find? "properties" node)
    (hnode : Shaped node) : Shaped other where
  properties := by
    rw [h]
    exact hnode.properties
  entries := by
    intro name v hv
    exact hnode.entries name v (property?_congr h ▸ hv)

/-! ## One parent -/

theorem find?_properties_cases
    (h : ∀ v, Members.find? "properties" node = some v → ∃ children, v = .object children) :
    Members.find? "properties" node = none ∨
      ∃ children, Members.find? "properties" node = some (.object children) := by
  cases hprops : Members.find? "properties" node with
  | none => exact Or.inl rfl
  | some v =>
    obtain ⟨children, rfl⟩ := h v hprops
    exact Or.inr ⟨children, rfl⟩

theorem property?_extend (hu : Value.Unique (.object parent)) (hparent : Shaped parent)
    (hown : ∀ v, Members.find? "properties" own = some v → ∃ children, v = .object children) :
    property? name (extend own parent) =
      mergedSchema (property? name own) (property? name parent) := by
  have hfind : Members.find? "properties" (extend own parent) =
      mergedProperties (Members.find? "properties" own) (Members.find? "properties" parent) := by
    rw [find?_extend hu.keys, if_pos rfl]
  rcases find?_properties_cases hown with hnone | ⟨mine, hmine⟩
  · rw [hnone] at hfind
    rw [property?_of_none hnone]
    exact property?_congr hfind
  · rw [property?_of_object hmine]
    rcases find?_properties_cases hparent.properties with hnone | ⟨theirs, htheirs⟩
    · rw [hmine, hnone, mergedProperties_none] at hfind
      rw [property?_of_none hnone, mergedSchema_none]
      exact property?_of_object hfind
    · rw [hmine, htheirs] at hfind
      rw [property?_of_object htheirs, property?_of_object hfind]
      exact find?_mergeProperties (hu.find? htheirs).keys

/-- What is no schema stays where it is. -/
theorem Shaped.of_extend (hu : Value.Unique (.object parent)) (hparent : Shaped parent)
    (h : Shaped (extend own parent)) : Shaped own := by
  have hown : ∀ v, Members.find? "properties" own = some v →
      ∃ children, v = .object children := by
    intro v hv
    have hfind : Members.find? "properties" (extend own parent) =
        mergedProperties (some v) (Members.find? "properties" parent) := by
      rw [find?_extend hu.keys, if_pos rfl, hv]
    cases v with
    | object children => exact ⟨children, rfl⟩
    | _ => exact h.properties _ hfind
  refine ⟨hown, fun name v hv => ?_⟩
  have hmerged : property? name (extend own parent) =
      mergedSchema (property? name own) (property? name parent) :=
    property?_extend hu hparent hown
  rw [hv] at hmerged
  cases v with
  | object child => exact ⟨child, rfl⟩
  | _ => exact h.entries name _ hmerged

theorem isSome_property?_extend (hu : Value.Unique (.object parent)) (hown : Shaped own)
    (hparent : Shaped parent) :
    (property? name (extend own parent)).isSome ↔
      (property? name own).isSome ∨ (property? name parent).isSome := by
  rw [property?_extend hu hparent hown.properties]
  cases hmine : property? name own with
  | none => simp [mergedSchema]
  | some v =>
    cases v with
    | object mine =>
      cases htheirs : property? name parent with
      | none => simp
      | some w => cases w <;> simp [mergedSchema]
    | _ => simp [mergedSchema]

theorem propertyKey?_extend (hu : Value.Unique (.object parent)) (hown : Shaped own)
    (hparent : Shaped parent) :
    propertyKey? name key (extend own parent) =
      (propertyKey? name key own).or (propertyKey? name key parent) := by
  unfold propertyKey?
  rw [property?_extend hu hparent hown.properties]
  cases hmine : property? name own with
  | none => simp [mergedSchema]
  | some v =>
    obtain ⟨mine, rfl⟩ := hown.entries name v hmine
    cases htheirs : property? name parent with
    | none => simp
    | some w =>
      obtain ⟨theirs, rfl⟩ := hparent.entries name w htheirs
      exact find?_fill

/-! ## All parents -/

section Inherited

variable {inherited : List Members}

theorem find?_foldl_extend (hu : ∀ members ∈ inherited, Value.Unique (.object members))
    (hkey : key ≠ "properties") :
    Members.find? key (inherited.foldl extend node) =
      (Members.find? key node).or (inherited.findSome? (Members.find? key)) := by
  induction inherited generalizing node with
  | nil => simp
  | cons first rest ih =>
    rw [List.forall_mem_cons] at hu
    rw [List.foldl_cons, ih hu.2, find?_extend hu.1.keys, if_neg hkey, Option.or_assoc,
      List.findSome?_cons]
    cases Members.find? key first <;> simp

theorem Shaped.of_foldl (hu : ∀ members ∈ inherited, Value.Unique (.object members))
    (hinherited : ∀ members ∈ inherited, Shaped members)
    (h : Shaped (inherited.foldl extend node)) : Shaped node := by
  induction inherited generalizing node with
  | nil => exact h
  | cons first rest ih =>
    rw [List.forall_mem_cons] at hu hinherited
    exact .of_extend hu.1 hinherited.1 (ih hu.2 hinherited.2 h)

theorem isSome_property?_foldl (hu : ∀ members ∈ inherited, Value.Unique (.object members))
    (hinherited : ∀ members ∈ inherited, Shaped members)
    (h : Shaped (inherited.foldl extend node)) :
    (property? name (inherited.foldl extend node)).isSome ↔
      (property? name node).isSome ∨ ∃ members ∈ inherited, (property? name members).isSome := by
  induction inherited generalizing node with
  | nil => simp
  | cons first rest ih =>
    rw [List.forall_mem_cons] at hu hinherited
    have hfirst : Shaped (extend node first) := .of_foldl hu.2 hinherited.2 h
    rw [List.foldl_cons, ih hu.2 hinherited.2 h,
      isSome_property?_extend hu.1 (.of_extend hu.1 hinherited.1 hfirst) hinherited.1]
    simp [or_assoc]

theorem propertyKey?_foldl (hu : ∀ members ∈ inherited, Value.Unique (.object members))
    (hinherited : ∀ members ∈ inherited, Shaped members)
    (h : Shaped (inherited.foldl extend node)) :
    propertyKey? name key (inherited.foldl extend node) =
      (propertyKey? name key node).or (inherited.findSome? (propertyKey? name key)) := by
  induction inherited generalizing node with
  | nil => simp
  | cons first rest ih =>
    rw [List.forall_mem_cons] at hu hinherited
    have hfirst : Shaped (extend node first) := .of_foldl hu.2 hinherited.2 h
    rw [List.foldl_cons, ih hu.2 hinherited.2 h,
      propertyKey?_extend hu.1 (.of_extend hu.1 hinherited.1 hfirst) hinherited.1, Option.or_assoc,
      List.findSome?_cons]
    cases propertyKey? name key first <;> simp

end Inherited

end Node

namespace Building

open Build (Ends Reads)

variable {σ : Type} {s : σ} {parent : String → Build σ Members} {levels : Nat}
  {node built : Members} {inherited : List Members} {name key : String}

/-! ## The built node -/

section Success

variable (h : Success parent levels s node inherited built) (hu : Value.Unique (.object node))
  (hinherited : ∀ members ∈ inherited, Resolved members ∧ Node.Shaped members)

include h hu hinherited in
/-- A key that the build does not look into is the node's own, or that of the first parent. -/
theorem Success.find?_built (hkey : key ∉ buildKeys) :
    Members.find? key built =
      (Members.find? key node).or (inherited.findSome? (Members.find? key)) := by
  have hne : key ≠ "type" ∧ key ≠ "properties" ∧ key ≠ "items" ∧ key ≠ "extends" := by
    simpa [buildKeys] using hkey
  obtain ⟨htype, hprops, hitems, hextends⟩ := hne
  obtain ⟨half, hhalf, hrest⟩ := h.properties
  have hunique : ∀ members ∈ inherited, Value.Unique (.object members) :=
    fun members hmembers => (hinherited members hmembers).1.unique
  rw [hrest.other key hitems, hhalf.other key hprops, find?_assemble htype,
    Node.find?_foldl_extend hunique hprops, find?_bare hu htype hextends]

include h hu hinherited in
/-- The type is the node's own unless it is null, or that of the first parent, or `any`. -/
theorem Success.find?_type :
    Members.find? "type" built =
      ((nonNull (Members.find? "type" node)).or
        (inherited.findSome? (Members.find? "type"))).or
          (some (.string SchemaType.default.name)) := by
  obtain ⟨half, hhalf, hrest⟩ := h.properties
  have hunique : ∀ members ∈ inherited, Value.Unique (.object members) :=
    fun members hmembers => (hinherited members hmembers).1.unique
  rw [hrest.other "type" (by decide), hhalf.other "type" (by decide), assemble,
    Members.find?_addMissing, if_pos rfl, Node.find?_foldl_extend hunique (by decide),
    find?_type_bare hu]

theorem find?_of_entryBuilt {build : Pointer → Members → Build σ Members}
    {children results : Members} (hall : List.Forall₂ (EntryBuilt build s) children results) :
    (Members.find? name children = none ∧ Members.find? name results = none) ∨
      ∃ child result place, Members.find? name children = some (.object child) ∧
        Members.find? name results = some (.object result) ∧
          Ends (build place child) s (.ok result) s := by
  induction hall with
  | nil => exact Or.inl ⟨rfl, rfl⟩
  | @cons entry result children results hentry _ ih =>
    obtain ⟨k, v⟩ := entry
    obtain ⟨k', w⟩ := result
    obtain ⟨hkey, child, built, place, hv, hw, hends⟩ := hentry
    simp only at hkey hv hw
    subst hkey hv hw
    by_cases hname : k = name
    · refine Or.inr ⟨child, built, place, ?_, ?_, hends⟩
      · rw [Members.find?_cons, if_pos hname]
      · rw [Members.find?_cons, if_pos hname]
    · rw [Members.find?_cons, Members.find?_cons, if_neg hname, if_neg hname]
      exact ih

include h in
/-- Each schema under `properties` is a built one. -/
theorem Success.property_cases (name : String) :
    (Node.property? name (assemble node inherited) = none ∧ Node.property? name built = none) ∨
      ∃ child result place, Node.property? name (assemble node inherited) = some (.object child) ∧
        Node.property? name built = some (.object result) ∧
          Ends (buildNode parent levels place child) s (.ok result) s := by
  obtain ⟨half, hhalf, hrest⟩ := h.properties
  have hbuilt : Members.find? "properties" built = Members.find? "properties" half :=
    hrest.other "properties" (by decide)
  cases hprops : Members.find? "properties" (assemble node inherited) with
  | none =>
    refine Or.inl ⟨Node.property?_of_none hprops, Node.property?_of_none ?_⟩
    rw [hbuilt, hhalf.absent hprops]
  | some v =>
    obtain ⟨children, results, rfl, hresults, hall⟩ := hhalf.present v hprops
    rw [Node.property?_of_object hprops, Node.property?_of_object (hbuilt.trans hresults)]
    exact find?_of_entryBuilt hall

include h in
theorem Success.shaped_assemble : Node.Shaped (assemble node inherited) where
  properties := by
    intro v hv
    obtain ⟨half, hhalf, -⟩ := h.properties
    obtain ⟨children, -, rfl, -⟩ := hhalf.present v hv
    exact ⟨children, rfl⟩
  entries := by
    intro name v hv
    rcases h.property_cases name with ⟨hnone, -⟩ | ⟨child, -, -, hchild, -, -⟩
    · simp [hv] at hnone
    · rw [hv, Option.some.injEq] at hchild
      exact ⟨child, hchild⟩

include h in
theorem Success.shaped : Node.Shaped built where
  properties := by
    intro v hv
    obtain ⟨half, hhalf, hrest⟩ := h.properties
    rw [hrest.other "properties" (by decide)] at hv
    cases hprops : Members.find? "properties" (assemble node inherited) with
    | none => simp [hhalf.absent hprops] at hv
    | some w =>
      obtain ⟨-, results, -, hresults, -⟩ := hhalf.present w hprops
      rw [hresults, Option.some.injEq] at hv
      exact ⟨results, hv.symm⟩
  entries := by
    intro name v hv
    rcases h.property_cases name with ⟨-, hnone⟩ | ⟨-, result, -, -, hresult, -⟩
    · simp [hv] at hnone
    · rw [hv, Option.some.injEq] at hresult
      exact ⟨result, hresult⟩

theorem property?_assemble :
    Node.property? name (assemble node inherited) =
      Node.property? name (inherited.foldl extend (bare node)) :=
  Node.property?_congr (find?_assemble (by decide))

include hu in
theorem property?_bare : Node.property? name (bare node) = Node.property? name node :=
  Node.property?_congr (find?_bare hu (by decide) (by decide))

include h hu hinherited in
/-- A property is declared by the node or by a parent. -/
theorem Success.isSome_property? :
    (Node.property? name built).isSome ↔
      (Node.property? name node).isSome ∨
        ∃ members ∈ inherited, (Node.property? name members).isSome := by
  have hsame : (Node.property? name built).isSome ↔
      (Node.property? name (assemble node inherited)).isSome := by
    rcases h.property_cases name with ⟨hnone, hnone'⟩ | ⟨child, result, place, hchild, hresult, -⟩
    · rw [hnone, hnone']
    · rw [hchild, hresult]
      simp
  have hshaped : Node.Shaped (inherited.foldl extend (bare node)) :=
    h.shaped_assemble.congr (find?_assemble (by decide)).symm
  rw [hsame, property?_assemble, Node.isSome_property?_foldl
    (fun members hmembers => (hinherited members hmembers).1.unique)
    (fun members hmembers => (hinherited members hmembers).2) hshaped, property?_bare hu]

include h hu hinherited in
/-- Before the children are built, a key of a schema is that of the first to declare it. -/
theorem Success.propertyKey?_assemble :
    Node.propertyKey? name key (assemble node inherited) =
      (Node.propertyKey? name key node).or (inherited.findSome? (Node.propertyKey? name key)) := by
  have hshaped : Node.Shaped (inherited.foldl extend (bare node)) :=
    h.shaped_assemble.congr (find?_assemble (by decide)).symm
  have hmerged : Node.propertyKey? name key (assemble node inherited) =
      Node.propertyKey? name key (inherited.foldl extend (bare node)) :=
    Node.propertyKey?_congr (find?_assemble (by decide))
  have hbare : Node.propertyKey? name key (bare node) = Node.propertyKey? name key node :=
    Node.propertyKey?_congr (find?_bare hu (by decide) (by decide))
  rw [hmerged, Node.propertyKey?_foldl
    (fun members hmembers => (hinherited members hmembers).1.unique)
    (fun members hmembers => (hinherited members hmembers).2) hshaped, hbare]

theorem propertyKey?_extends_of_closed {members : Members} (hclosed : Node.Closed members) :
    Node.propertyKey? name "extends" members = none := by
  unfold Node.propertyKey?
  split
  · case h_1 child hchild =>
    obtain ⟨children, hprops, hfind⟩ := Node.property?_eq_some.mp hchild
    exact (Node.closed_iff.mp (hclosed.below (.property hprops hfind))).1
  · rfl

include h hu hinherited in
/-- The references of a schema under `properties` are never inherited. -/
theorem Success.propertyKey?_extends :
    Node.propertyKey? name "extends" (assemble node inherited) =
      Node.propertyKey? name "extends" node := by
  have hnone : inherited.findSome? (Node.propertyKey? name "extends") = none :=
    List.findSome?_eq_none_iff.mpr fun members hmembers =>
      propertyKey?_extends_of_closed (hinherited members hmembers).1.closed
  rw [h.propertyKey?_assemble hu hinherited, hnone, Option.or_none]

/-- A node that names no parents keeps its keys. -/
theorem find?_buildNode_of_closed (hu : Value.Unique (.object node))
    (hparent : ∀ reference, Reads s Resolved (parent reference))
    (hextends : Members.find? "extends" node = none) (hkey : key ∉ buildKeys)
    {place : Pointer} (hends : Ends (buildNode parent levels place node) s (.ok built) s) :
    Members.find? key built = Members.find? key node := by
  cases levels with
  | zero => exact absurd hends Build.not_ends_unfinished
  | succ levels =>
    obtain ⟨inherited, hsuccess⟩ := buildNode_ok hu hparent hends
    have hnone : Node.ownReferences node = [] := by
      rw [Node.ownReferences, hextends]
    have hparents := hsuccess.parents
    rw [hnone] at hparents
    obtain rfl : inherited = [] := by
      cases hparents
      rfl
    have hfind := hsuccess.find?_built hu (by simp) hkey
    rw [hfind, List.findSome?_nil, Option.or_none]

include h hu hinherited in
/-- If the node's schema for a property names no parents, a key of it that the build does not look
into is that of the first to declare it. -/
theorem Success.propertyKey? (hparent : ∀ reference, Reads s Resolved (parent reference))
    (hextends : Node.propertyKey? name "extends" node = none) (hkey : key ∉ buildKeys) :
    Node.propertyKey? name key built =
      (Node.propertyKey? name key node).or (inherited.findSome? (Node.propertyKey? name key)) := by
  rw [← h.propertyKey?_assemble hu hinherited]
  rcases h.property_cases name with ⟨hnone, hnone'⟩ | ⟨child, result, place, hchild, hresult, hends⟩
  · simp [Node.propertyKey?, hnone, hnone']
  have hunique : Value.Unique (.object (assemble node inherited)) :=
    unique_assemble hu fun members hmembers => (hinherited members hmembers).1.unique
  have hchildUnique : Value.Unique (.object child) := by
    obtain ⟨children, hprops, hfind⟩ := Node.property?_eq_some.mp hchild
    exact (hunique.find? hprops).find? hfind
  have hclosed : Members.find? "extends" child = none := by
    have hassembled : Node.propertyKey? name "extends" (assemble node inherited) = none := by
      rw [h.propertyKey?_extends hu hinherited, hextends]
    simpa [Node.propertyKey?, hchild] using hassembled
  have hkept := find?_buildNode_of_closed hchildUnique hparent hclosed hkey hends
  simpa [Node.propertyKey?, hchild, hresult] using hkept

end Success

end Building
end Schemata
