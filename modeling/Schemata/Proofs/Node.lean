import Mathlib.Logic.Relation
import Schemata.Proofs.Inheritance

/-!
# The nodes of a schema document and the references they make

The nodes of a document are its root and, for every node, the objects under `properties` and
`items`.  A document mentions the references of all its nodes.  A tree without references is
`Closed`, and inheriting from a closed tree neither adds nor hides a reference: this is why the
references met while a tree is built are exactly those of the stored document.
-/

namespace Schemata
namespace Node

open Json (Members Value)
open Inheritance

variable {node child parent : Members} {name reference : String}

/-! ## Positions -/

/-- An object directly under `properties` or `items` of a node. -/
inductive Child (node child : Members) : Prop
  | property {children : Members} {name : String} :
      Members.find? "properties" node = some (.object children) →
        Members.find? name children = some (.object child) → Child node child
  | item : Members.find? "items" node = some (.object child) → Child node child
  | tupleItem {tuple : List Value} :
      Members.find? "items" node = some (.array tuple) → .object child ∈ tuple → Child node child

/-- The root of a tree and all nodes below it. -/
def Contains : Members → Members → Prop :=
  Relation.ReflTransGen Child

/-- The strings that a node itself gives under `extends`. -/
def ownReferences (node : Members) : List String :=
  match Members.find? "extends" node with
  | some (.string s) => [s]
  | some (.array items) => items.filterMap Value.string?
  | _ => []

/-- Some node of the tree makes the reference. -/
def Mentions (node : Members) (reference : String) : Prop :=
  ∃ sub, Contains node sub ∧ reference ∈ ownReferences sub

/-- No node of the tree has `extends`. -/
def Closed (node : Members) : Prop :=
  ∀ sub, Contains node sub → Members.find? "extends" sub = none

theorem mentions_of_own (h : reference ∈ ownReferences node) : Mentions node reference :=
  ⟨node, Relation.ReflTransGen.refl, h⟩

theorem Mentions.of_child (hchild : Child node child) (h : Mentions child reference) :
    Mentions node reference := by
  obtain ⟨sub, hsub, hown⟩ := h
  exact ⟨sub, hsub.head hchild, hown⟩

/-- A mention is the root's own or comes from a node directly below. -/
theorem mentions_iff :
    Mentions node reference ↔
      reference ∈ ownReferences node ∨ ∃ child, Child node child ∧ Mentions child reference := by
  constructor
  · rintro ⟨sub, hsub, hown⟩
    rcases Relation.ReflTransGen.cases_head hsub with rfl | ⟨child, hchild, hbelow⟩
    · exact Or.inl hown
    · exact Or.inr ⟨child, hchild, sub, hbelow, hown⟩
  · rintro (hown | ⟨child, hchild, h⟩)
    · exact mentions_of_own hown
    · exact h.of_child hchild

/-- A node without children mentions its own references. -/
theorem mentions_iff_of_leaf (hprops : Members.find? "properties" node = none)
    (hitems : Members.find? "items" node = none) :
    Mentions node reference ↔ reference ∈ ownReferences node := by
  have hleaf : ∀ child, ¬ Child node child := by
    intro child hchild
    cases hchild with
    | property hfind _ => simp [hprops] at hfind
    | item hfind => simp [hitems] at hfind
    | tupleItem hfind _ => simp [hitems] at hfind
  rw [mentions_iff]
  simp [hleaf]

theorem closed_iff :
    Closed node ↔
      Members.find? "extends" node = none ∧ ∀ child, Child node child → Closed child := by
  constructor
  · intro h
    exact ⟨h node Relation.ReflTransGen.refl, fun child hchild sub hsub => h sub (hsub.head hchild)⟩
  · rintro ⟨hroot, hchildren⟩ sub hsub
    rcases Relation.ReflTransGen.cases_head hsub with rfl | ⟨child, hchild, hbelow⟩
    · exact hroot
    · exact hchildren child hchild sub hbelow

theorem Closed.below (h : Closed node) (hchild : Child node child) : Closed child :=
  (closed_iff.mp h).2 child hchild

theorem Closed.not_mentions (h : Closed node) : ¬ Mentions node reference := by
  rintro ⟨sub, hsub, hown⟩
  simp [ownReferences, h sub hsub] at hown

theorem Child.unique (h : Child node child) (hu : Value.Unique (.object node)) :
    Value.Unique (.object child) := by
  cases h with
  | property hprops hchild => exact (hu.find? hprops).find? hchild
  | item hitem => exact hu.find? hitem
  | tupleItem htuple hmem => exact (hu.find? htuple).item hmem

theorem Child.nesting_lt (h : Child node child) :
    Value.nesting (.object child) < Value.nesting (.object node) := by
  cases h with
  | property hprops hchild =>
    exact Nat.lt_trans (Value.nesting_lt_of_find? hchild) (Value.nesting_lt_of_find? hprops)
  | item hitem => exact Value.nesting_lt_of_find? hitem
  | tupleItem htuple hmem =>
    exact Nat.lt_trans (Value.nesting_lt_of_item hmem) (Value.nesting_lt_of_find? htuple)

/-! ## What a node's parts depend on -/

/-- The children of a node depend on its `properties` and its `items` alone. -/
theorem Child.congr {other : Members}
    (hprops : Members.find? "properties" other = Members.find? "properties" node)
    (hitems : Members.find? "items" other = Members.find? "items" node) (h : Child node child) :
    Child other child := by
  cases h with
  | property hfind hchild => exact .property (hprops.trans hfind) hchild
  | item hitem => exact .item (hitems.trans hitem)
  | tupleItem htuple hmem => exact .tupleItem (hitems.trans htuple) hmem

theorem child_congr {other : Members}
    (hprops : Members.find? "properties" other = Members.find? "properties" node)
    (hitems : Members.find? "items" other = Members.find? "items" node) :
    Child other child ↔ Child node child :=
  ⟨Child.congr hprops.symm hitems.symm, Child.congr hprops hitems⟩

theorem ownReferences_congr {other : Members}
    (h : Members.find? "extends" other = Members.find? "extends" node) :
    ownReferences other = ownReferences node := by
  unfold ownReferences
  rw [h]

/-! ## Declared properties -/

/-- What a node declares for a property. -/
def property? (name : String) (node : Members) : Option Value :=
  match Members.find? "properties" node with
  | some (.object children) => Members.find? name children
  | _ => none

theorem property?_congr {other : Members}
    (h : Members.find? "properties" other = Members.find? "properties" node) :
    property? name other = property? name node := by
  unfold property?
  rw [h]

theorem property?_of_object {children : Members}
    (h : Members.find? "properties" node = some (.object children)) :
    property? name node = Members.find? name children := by
  unfold property?
  rw [h]

theorem property?_of_none (h : Members.find? "properties" node = none) :
    property? name node = none := by
  unfold property?
  rw [h]

theorem property?_eq_some {v : Value} :
    property? name node = some v ↔ ∃ children,
      Members.find? "properties" node = some (.object children) ∧
        Members.find? name children = some v := by
  constructor
  · intro h
    unfold property? at h
    split at h
    · case h_1 children hprops => exact ⟨children, hprops, h⟩
    · simp at h
  · rintro ⟨children, hprops, hfind⟩
    exact (property?_of_object hprops).trans hfind

theorem Child.of_property? (h : property? name node = some (.object child)) :
    Child node child := by
  obtain ⟨children, hprops, hchild⟩ := property?_eq_some.mp h
  exact .property hprops hchild

/-! ## Inheriting from closed trees -/

/-- A child of a filled node is the node's own, or the parent's if the node lacks the key. -/
theorem Child.of_fill (h : Child (fill node parent) child) :
    Child node child ∨ Child parent child := by
  cases h with
  | property hprops hchild =>
    exact (find?_of_fill hprops).imp (.property · hchild) (.property · hchild)
  | item hitem => exact (find?_of_fill hitem).imp .item .item
  | tupleItem htuple hmem =>
    exact (find?_of_fill htuple).imp (.tupleItem · hmem) (.tupleItem · hmem)

theorem Child.fill (h : Child node child) : Child (Inheritance.fill node parent) child := by
  cases h with
  | property hprops hchild =>
    exact .property (by rw [find?_fill, hprops, Option.some_or]) hchild
  | item hitem => exact .item (by rw [find?_fill, hitem, Option.some_or])
  | tupleItem htuple hmem => exact .tupleItem (by rw [find?_fill, htuple, Option.some_or]) hmem

theorem Mentions.fill (h : Mentions node reference) :
    Mentions (Inheritance.fill node parent) reference := by
  rcases mentions_iff.mp h with hown | ⟨child, hchild, h⟩
  · refine mentions_of_own ?_
    cases hfind : Members.find? "extends" node with
    | none => simp [ownReferences, hfind] at hown
    | some v =>
      rwa [ownReferences_congr]
      rw [find?_fill, hfind, Option.some_or]
  · exact h.of_child hchild.fill

theorem mentions_fill_iff (hclosed : Closed parent) :
    Mentions (Inheritance.fill node parent) reference ↔ Mentions node reference := by
  refine ⟨fun h => ?_, Mentions.fill⟩
  rcases mentions_iff.mp h with hown | ⟨child, hchild, h⟩
  · refine mentions_of_own ?_
    rwa [ownReferences_congr] at hown
    rw [find?_fill, (closed_iff.mp hclosed).1, Option.or_none]
  · rcases hchild.of_fill with hmine | htheirs
    · exact h.of_child hmine
    · exact absurd h (Closed.below hclosed htheirs).not_mentions

theorem find?_items_extend (hu : Members.UniqueKeys parent) :
    Members.find? "items" (extend node parent) =
      (Members.find? "items" node).or (Members.find? "items" parent) := by
  rw [find?_extend hu, if_neg (by decide)]

theorem find?_properties_extend (hu : Members.UniqueKeys parent) :
    Members.find? "properties" (extend node parent) =
      mergedProperties (Members.find? "properties" node) (Members.find? "properties" parent) := by
  rw [find?_extend hu, if_pos rfl]

/-- The items of the merged node are the parent's or the node's. -/
theorem find?_items_of_extend {v : Value} (hu : Members.UniqueKeys parent)
    (h : Members.find? "items" (extend node parent) = some v) :
    Members.find? "items" parent = some v ∨ Members.find? "items" node = some v := by
  rw [find?_items_extend hu, Option.or_eq_some_iff] at h
  exact h.symm.imp_left And.right

/-- A property of the merged node comes from the parent, from the node, or from both. -/
theorem property?_of_extend {v : Value} (hu : Value.Unique (.object parent))
    (h : property? name (extend node parent) = some v) :
    property? name parent = some v ∨ property? name node = some v ∨
      ∃ mine filling, property? name node = some (.object mine) ∧
        property? name parent = some (.object filling) ∧
        v = .object (Inheritance.fill mine filling) := by
  obtain ⟨children, hprops, hfind⟩ := property?_eq_some.mp h
  rw [find?_properties_extend hu.keys] at hprops
  rcases mergedProperties_eq_object hprops with
    ⟨-, htheirs⟩ | hmine | ⟨own, theirs, hmine, htheirs, rfl⟩
  · exact Or.inl ((property?_of_object htheirs).trans hfind)
  · exact Or.inr (Or.inl ((property?_of_object hmine).trans hfind))
  · rw [find?_mergeProperties (hu.find? htheirs).keys] at hfind
    rw [property?_of_object hmine, property?_of_object htheirs]
    exact (mergedSchema_eq_some hfind).imp_left And.right

/-- A child of the merged node comes from the parent, from the node, or from both. -/
theorem Child.cases_extend (hu : Value.Unique (.object parent))
    (h : Child (extend node parent) child) :
    Child parent child ∨ Child node child ∨
      ∃ mine filling, Child node mine ∧ Child parent filling ∧
        child = Inheritance.fill mine filling := by
  cases h with
  | item hitem =>
    rcases find?_items_of_extend hu.keys hitem with htheirs | hmine
    · exact Or.inl (.item htheirs)
    · exact Or.inr (Or.inl (.item hmine))
  | tupleItem htuple hmem =>
    rcases find?_items_of_extend hu.keys htuple with htheirs | hmine
    · exact Or.inl (.tupleItem htheirs hmem)
    · exact Or.inr (Or.inl (.tupleItem hmine hmem))
  | property hprops hchild =>
    rcases property?_of_extend hu (property?_eq_some.mpr ⟨_, hprops, hchild⟩) with
      htheirs | hmine | ⟨mine, filling, hmine, htheirs, heq⟩
    · exact Or.inl (.of_property? htheirs)
    · exact Or.inr (Or.inl (.of_property? hmine))
    · exact Or.inr (Or.inr ⟨mine, filling, .of_property? hmine, .of_property? htheirs,
        Value.object.inj heq⟩)

/-- A child of the merged node is closed, or makes the references of one child of the node. -/
theorem Child.of_extend (hu : Value.Unique (.object parent)) (hclosed : Closed parent)
    (h : Child (extend node parent) child) :
    Closed child ∨ ∃ old, Child node old ∧
      ∀ reference, Mentions child reference → Mentions old reference := by
  rcases h.cases_extend hu with htheirs | hmine | ⟨mine, filling, hmine, htheirs, rfl⟩
  · exact Or.inl (hclosed.below htheirs)
  · exact Or.inr ⟨child, hmine, fun _ => id⟩
  · exact Or.inr ⟨mine, hmine, fun _ => (mentions_fill_iff (hclosed.below htheirs)).mp⟩

/-- A child of the node stays in the merged node, with all its references. -/
theorem Child.extend (hu : Value.Unique (.object parent)) (h : Child node child) :
    ∃ merged, Child (extend node parent) merged ∧
      ∀ reference, Mentions child reference → Mentions merged reference := by
  cases h with
  | item hitem =>
    refine ⟨child, .item ?_, fun _ => id⟩
    rw [find?_items_extend hu.keys, hitem, Option.some_or]
  | tupleItem htuple hmem =>
    refine ⟨child, .tupleItem ?_ hmem, fun _ => id⟩
    rw [find?_items_extend hu.keys, htuple, Option.some_or]
  | @property own name hmine hchild =>
    have hprops : Members.find? "properties" (Schemata.extend node parent) =
        mergedProperties (some (.object own)) (Members.find? "properties" parent) :=
      hmine ▸ find?_properties_extend hu.keys
    cases htheirs : Members.find? "properties" parent with
    | none =>
      rw [htheirs, mergedProperties_none] at hprops
      exact ⟨child, .property hprops hchild, fun _ => id⟩
    | some inherited =>
      rw [htheirs] at hprops
      cases inherited with
      | object theirs =>
        have hmerged : Members.find? name (mergeProperties own theirs) =
            mergedSchema (some (.object child)) (Members.find? name theirs) :=
          hchild ▸ find?_mergeProperties (hu.find? htheirs).keys
        cases hinherited : Members.find? name theirs with
        | none =>
          rw [hinherited, mergedSchema_none] at hmerged
          exact ⟨child, .property hprops hmerged, fun _ => id⟩
        | some filling =>
          rw [hinherited] at hmerged
          cases filling with
          | object filling =>
            exact ⟨Inheritance.fill child filling, .property hprops hmerged, fun _ => Mentions.fill⟩
          | _ => exact ⟨child, .property hprops hmerged, fun _ => id⟩
      | _ => exact ⟨child, .property hprops hchild, fun _ => id⟩

end Node
end Schemata
