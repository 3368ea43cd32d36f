import Schemata.Building
import Schemata.Proofs.Grammar
import Schemata.Proofs.Position

/-!
# The grammar of built trees

What `Building.prepare` demands of a node, and how every node of a built tree looks.
-/

namespace Schemata

open Json (Members Value)

namespace Node

/-- No node of the value has references. -/
def NoReferences (v : Value) : Prop :=
  ∀ node, Position v (.object node) → Members.find? "extends" node = none

theorem noReferences_object_iff {node : Members} :
    NoReferences (.object node) ↔
      Members.find? "extends" node = none ∧ ∀ part, Part node part → NoReferences part :=
  forall_node_iff

theorem noReferences_leaf {node : Members} (hextends : Members.find? "extends" node = none)
    (hprops : Members.find? "properties" node = none)
    (hitems : Members.find? "items" node = none) : NoReferences (.object node) :=
  noReferences_object_iff.mpr ⟨hextends, fun _ hpart => absurd hpart (not_part hprops hitems)⟩

theorem noReferences_of_properties {node children : Members}
    (hextends : Members.find? "extends" node = none)
    (hprops : Members.find? "properties" node = some (.object children))
    (hitems : Members.find? "items" node = none)
    (hchildren : ∀ entry ∈ children, NoReferences entry.2) : NoReferences (.object node) := by
  refine noReferences_object_iff.mpr ⟨hextends, ?_⟩
  intro part hpart
  obtain ⟨name, hmem⟩ := hpart.exists_mem hprops hitems
  exact hchildren (name, part) hmem

/-- The keys of a node are allowed for the declaration, and its children are where children may
be. -/
structure Allowed (decl : TypeDecl) (node : Members) : Prop where
  keys : ∀ key ∈ Members.keys node, decl.allows key = true
  properties : ∀ v, Members.find? "properties" node = some v → ∃ children, v = .object children
  items : ∀ v, Members.find? "items" node = some v →
    (∃ item, v = .object item) ∨ ∃ tuple, v = .array tuple

/-- A node of a built tree: it has no references, and a type that allows its keys. -/
structure Finished (node : Members) : Prop where
  noReference : Members.find? "extends" node = none
  declared : ∃ decl : TypeDecl, decl.members ≠ [] ∧
    Members.find? "type" node = some decl.toValue ∧ Allowed decl node

theorem Allowed.perm {decl : TypeDecl} {node other : Members} (h : Allowed decl node)
    (hu : Members.UniqueKeys node) (hperm : node.Perm other) : Allowed decl other where
  keys := fun key hkey => h.keys key ((hperm.map Prod.fst).mem_iff.mpr hkey)
  properties := by
    rw [← Members.find?_perm hperm hu]
    exact h.properties
  items := by
    rw [← Members.find?_perm hperm hu]
    exact h.items

theorem Finished.perm {node other : Members} (h : Finished node) (hu : Members.UniqueKeys node)
    (hperm : node.Perm other) : Finished other where
  noReference := by rw [← Members.find?_perm hperm hu, h.noReference]
  declared := by
    obtain ⟨decl, hmembers, htype, hallowed⟩ := h.declared
    exact ⟨decl, hmembers, Members.find?_perm hperm hu ▸ htype, hallowed.perm hu hperm⟩

/-- At every node position of a value stands a node as built trees have it. -/
def BuiltGrammar (v : Value) : Prop :=
  ∀ w, Position v w → ∃ node, w = .object node ∧ Finished node

theorem builtGrammar_object_iff {node : Members} :
    BuiltGrammar (.object node) ↔ Finished node ∧ ∀ w, Part node w → BuiltGrammar w := by
  unfold BuiltGrammar
  rw [forall_position_iff]
  simp

/-- The grammar of built trees does not depend on the order of keys. -/
theorem BuiltGrammar.perm {node other : Members} (h : BuiltGrammar (.object node))
    (hu : Members.UniqueKeys node) (hperm : node.Perm other) : BuiltGrammar (.object other) := by
  obtain ⟨hfinished, hparts⟩ := builtGrammar_object_iff.mp h
  refine builtGrammar_object_iff.mpr ⟨hfinished.perm hu hperm, fun w hw => hparts w ?_⟩
  exact hw.congr (Members.find?_perm hperm hu) (Members.find?_perm hperm hu)

theorem BuiltGrammar.noReferences {v : Value} (h : BuiltGrammar v) : NoReferences v := by
  intro node hposition
  obtain ⟨found, hfound, hfinished⟩ := h _ hposition
  cases hfound
  exact hfinished.noReference

end Node

namespace Building

variable {location : Pointer} {decl : TypeDecl} {node : Members}

theorem declaration_eq_ok :
    declaration location node = .ok decl ↔
      decl.members ≠ [] ∧ Members.find? "type" node = some decl.toValue := by
  have htype : (Members.find? "type" node).getD .null = decl.toValue ↔
      Members.find? "type" node = some decl.toValue := by
    cases Members.find? "type" node with
    | none => simp [decl.toValue_ne_null.symm]
    | some v => simp
  rw [← htype, ← TypeDecl.ofValue_eq_ok, declaration]
  cases TypeDecl.ofValue ((Members.find? "type" node).getD .null) <;> simp

theorem checkKeys_eq_ok :
    checkKeys location decl node = .ok () ↔
      ∀ key ∈ Members.keys node, decl.allows key = true := by
  induction node with
  | nil => simp [checkKeys, Members.keys]
  | cons entry rest ih =>
    have hkeys : Members.keys (entry :: rest) = entry.1 :: Members.keys rest := rfl
    rw [checkKeys, hkeys, List.forall_mem_cons, ← ih]
    by_cases hkey : decl.allows entry.1 = true <;> simp [hkey]

end Building
end Schemata
