import Schemata.Proofs.Node

/-!
# Node positions

The root of a schema document stands at a node position, and below every object so do the values
under `properties`, the value of `items`, and the elements of `items` if it is a list.  What stands
there need not be an object; `Node.Child` speaks of those that are.
-/

namespace Schemata
namespace Node

open Json (Members Value)

variable {node : Members} {v w : Value}

/-! ## Positions -/

/-- A value at a node position directly below a node. -/
inductive Part (node : Members) (w : Value) : Prop
  | property {children : Members} {name : String} :
      Members.find? "properties" node = some (.object children) → (name, w) ∈ children →
        Part node w
  | item : Members.find? "items" node = some w → (∀ tuple, w ≠ .array tuple) → Part node w
  | tupleItem {tuple : List Value} :
      Members.find? "items" node = some (.array tuple) → w ∈ tuple → Part node w

/-- The value itself, or a value at a node position below it. -/
inductive Position : Value → Value → Prop
  | root (v : Value) : Position v v
  | inside {node : Members} {w v : Value} : Part node w → Position w v → Position (.object node) v

theorem Part.nesting_lt (h : Part node w) : Value.nesting w < Value.nesting (.object node) := by
  cases h with
  | property hprops hmem =>
    exact Nat.lt_trans (Value.nesting_lt_of_entry hmem) (Value.nesting_lt_of_find? hprops)
  | item hitem _ => exact Value.nesting_lt_of_find? hitem
  | tupleItem htuple hmem =>
    exact Nat.lt_trans (Value.nesting_lt_of_item hmem) (Value.nesting_lt_of_find? htuple)

theorem Part.unique (h : Part node w) (hu : Value.Unique (.object node)) : w.Unique := by
  cases h with
  | property hprops hmem => exact (Value.unique_object_iff.mp (hu.find? hprops)).2 _ hmem
  | item hitem _ => exact hu.find? hitem
  | tupleItem htuple hmem => exact (hu.find? htuple).item hmem

theorem Position.unique (h : Position v w) (hu : v.Unique) : w.Unique := by
  induction h with
  | root v => exact hu
  | inside hpart _ ih => exact ih (hpart.unique hu)

/-- The parts of a node depend on its `properties` and its `items` alone. -/
theorem Part.congr {other : Members}
    (hprops : Members.find? "properties" other = Members.find? "properties" node)
    (hitems : Members.find? "items" other = Members.find? "items" node) (h : Part node w) :
    Part other w := by
  cases h with
  | property hfind hmem => exact .property (hprops.trans hfind) hmem
  | item hitem htuple => exact .item (hitems.trans hitem) htuple
  | tupleItem htuple hmem => exact .tupleItem (hitems.trans htuple) hmem

/-- A node with neither of them is a leaf. -/
theorem not_part (hprops : Members.find? "properties" node = none)
    (hitems : Members.find? "items" node = none) : ¬ Part node w := by
  rintro (⟨hfind, -⟩ | ⟨hfind, -⟩ | ⟨hfind, -⟩)
  · simp [hprops] at hfind
  · simp [hitems] at hfind
  · simp [hitems] at hfind

/-- A node without items has its properties as parts. -/
theorem Part.exists_mem {children : Members} (h : Part node w)
    (hprops : Members.find? "properties" node = some (.object children))
    (hitems : Members.find? "items" node = none) : ∃ name, (name, w) ∈ children := by
  cases h with
  | @property found name hfind hmem =>
    obtain rfl : children = found := by simpa [hprops] using hfind
    exact ⟨name, hmem⟩
  | item hitem _ => simp [hitems] at hitem
  | tupleItem htuple _ => simp [hitems] at htuple

theorem Part.of_property? {name : String} (h : property? name node = some w) : Part node w := by
  obtain ⟨children, hprops, hfind⟩ := property?_eq_some.mp h
  exact .property hprops (Members.mem_of_find? hfind)

/-! ## Inheriting -/

open Inheritance in
/-- A part of a filled node is the node's own, or the parent's if the node lacks the key. -/
theorem Part.of_fill {parent : Members} (h : Part (fill node parent) w) :
    Part node w ∨ Part parent w := by
  cases h with
  | property hprops hmem => exact (find?_of_fill hprops).imp (.property · hmem) (.property · hmem)
  | item hitem htuple => exact (find?_of_fill hitem).imp (.item · htuple) (.item · htuple)
  | tupleItem htuple hmem =>
    exact (find?_of_fill htuple).imp (.tupleItem · hmem) (.tupleItem · hmem)

open Inheritance in
/-- A part of the merged node comes from the parent, from the node, or from both. -/
theorem Part.cases_extend {parent : Members} (hnode : Value.Unique (.object node))
    (hu : Value.Unique (.object parent)) (h : Part (extend node parent) w) :
    Part parent w ∨ Part node w ∨ ∃ mine filling, Part node (.object mine) ∧
      Part parent (.object filling) ∧ w = .object (fill mine filling) := by
  cases h with
  | item hitem htuple =>
    rcases find?_items_of_extend hu.keys hitem with htheirs | hmine
    · exact Or.inl (.item htheirs htuple)
    · exact Or.inr (Or.inl (.item hmine htuple))
  | tupleItem htuple hmem =>
    rcases find?_items_of_extend hu.keys htuple with htheirs | hmine
    · exact Or.inl (.tupleItem htheirs hmem)
    · exact Or.inr (Or.inl (.tupleItem hmine hmem))
  | @property children name hprops hmem =>
    have hfind : Members.find? name children = some w :=
      Members.find?_of_mem ((unique_extend hnode hu).find? hprops).keys hmem
    rcases property?_of_extend hu (property?_eq_some.mpr ⟨children, hprops, hfind⟩) with
      htheirs | hmine | ⟨mine, filling, hmine, htheirs, heq⟩
    · exact Or.inl (.of_property? htheirs)
    · exact Or.inr (Or.inl (.of_property? hmine))
    · exact Or.inr (Or.inr ⟨mine, filling, .of_property? hmine, .of_property? htheirs, heq⟩)

/-! ## All positions -/

/-- The positions of a node are its root and the positions of its parts. -/
theorem forall_position_iff {p : Value → Prop} :
    (∀ w, Position (.object node) w → p w) ↔
      p (.object node) ∧ ∀ part, Part node part → ∀ w, Position part w → p w := by
  constructor
  · intro h
    exact ⟨h _ (.root _), fun part hpart w hw => h w (.inside hpart hw)⟩
  · rintro ⟨hroot, hparts⟩ w (_ | ⟨hpart, hw⟩)
    · exact hroot
    · exact hparts _ hpart w hw

theorem forall_node_iff {p : Members → Prop} :
    (∀ below, Position (.object node) (.object below) → p below) ↔
      p node ∧ ∀ part, Part node part → ∀ below, Position part (.object below) → p below := by
  constructor
  · intro h
    exact ⟨h node (.root _), fun part hpart below hbelow => h below (.inside hpart hbelow)⟩
  · rintro ⟨hroot, hparts⟩ below (_ | ⟨hpart, hbelow⟩)
    · exact hroot
    · exact hparts _ hpart below hbelow

/-- Induction over the node positions of a value. -/
@[elab_as_elim]
theorem nodeInduction {motive : Value → Prop}
    (leaf : ∀ v, (∀ node, v ≠ .object node) → motive v)
    (node : ∀ node, (∀ w, Part node w → motive w) → motive (.object node)) :
    ∀ v, motive v
  | .null | .bool _ | .number _ | .string _ | .array _ => leaf _ (by simp)
  | .object members => node members fun w _ => nodeInduction leaf node w
termination_by v => Value.nesting v
decreasing_by exact Part.nesting_lt ‹_›

end Node
end Schemata
