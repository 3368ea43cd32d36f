import Schemata.Proofs.Building.Success

/-!
# Built trees are in the grammar

A build checks the keys of a node after its parents are merged into it and before its children are
built, and building children changes no key.  So what stands at any node position of a built tree
was itself built, checked and freed of its references.
-/

namespace Schemata
namespace Building

open Build (Ends Reads)
open Json (Members Value)

variable {σ : Type} {s t : σ} {parent : String → Build σ Members} {levels : Nat}
  {location : Pointer} {node built : Members} {inherited : List Members} {key : String}

/-! ## One node -/

theorem Success.find?_properties (h : Success parent levels s node inherited built) :
    (Members.find? "properties" (assemble node inherited) = none ∧
        Members.find? "properties" built = none) ∨
      ∃ children results,
        Members.find? "properties" (assemble node inherited) = some (.object children) ∧
          Members.find? "properties" built = some (.object results) ∧
            List.Forall₂ (EntryBuilt (buildNode parent levels) s) children results := by
  obtain ⟨half, hhalf, hbuilt⟩ := h.properties
  rw [hbuilt.other "properties" (by decide)]
  cases hprops : Members.find? "properties" (assemble node inherited) with
  | none => exact Or.inl ⟨rfl, hhalf.absent hprops⟩
  | some v =>
    obtain ⟨children, results, rfl, hresults, hall⟩ := hhalf.present v hprops
    exact Or.inr ⟨children, results, rfl, hresults, hall⟩

theorem Success.find?_items (h : Success parent levels s node inherited built) :
    (Members.find? "items" (assemble node inherited) = none ∧
        Members.find? "items" built = none) ∨
      (∃ item result, Members.find? "items" (assemble node inherited) = some item ∧
          Members.find? "items" built = some result ∧
            SchemaBuilt (buildNode parent levels) s item result) ∨
        ∃ tuple results, Members.find? "items" (assemble node inherited) = some (.array tuple) ∧
          Members.find? "items" built = some (.array results) ∧
            List.Forall₂ (SchemaBuilt (buildNode parent levels) s) tuple results := by
  obtain ⟨half, hhalf, hbuilt⟩ := h.properties
  rw [← hhalf.other "items" (by decide)]
  cases hitems : Members.find? "items" half with
  | none => exact Or.inl ⟨rfl, hbuilt.absent hitems⟩
  | some v =>
    rcases hbuilt.present v hitems with ⟨result, hresult, hschema⟩ |
      ⟨tuple, results, rfl, hresults, hall⟩
    · exact Or.inr (Or.inl ⟨v, result, rfl, hresult, hschema⟩)
    · exact Or.inr (Or.inr ⟨tuple, results, rfl, hresults, hall⟩)

theorem Success.find?_other (h : Success parent levels s node inherited built)
    (hprops : key ≠ "properties") (hitems : key ≠ "items") :
    Members.find? key built = Members.find? key (assemble node inherited) := by
  obtain ⟨half, hhalf, hbuilt⟩ := h.properties
  rw [hbuilt.other key hitems, hhalf.other key hprops]

/-- A built node has the keys of the merged one. -/
theorem Success.mem_keys (h : Success parent levels s node inherited built) :
    key ∈ Members.keys built ↔ key ∈ Members.keys (assemble node inherited) := by
  rw [← not_iff_not, ← Members.find?_eq_none_iff, ← Members.find?_eq_none_iff]
  by_cases hprops : key = "properties"
  · subst hprops
    rcases h.find?_properties with ⟨hnode, hbuilt⟩ | ⟨children, results, hnode, hbuilt, -⟩
    · simp [hnode, hbuilt]
    · simp [hnode, hbuilt]
  · by_cases hitems : key = "items"
    · subst hitems
      rcases h.find?_items with ⟨hnode, hbuilt⟩ | ⟨item, result, hnode, hbuilt, -⟩ |
        ⟨tuple, results, hnode, hbuilt, -⟩
      · simp [hnode, hbuilt]
      · simp [hnode, hbuilt]
      · simp [hnode, hbuilt]
    · rw [h.find?_other hprops hitems]

theorem Success.finished (h : Success parent levels s node inherited built)
    (hnode : Value.Unique (.object node)) (hinherited : ∀ members ∈ inherited, Resolved members) :
    Node.Finished built where
  noReference := by
    rw [h.find?_other (by decide) (by decide)]
    exact (prepared_assemble hnode hinherited).noReference
  declared := by
    obtain ⟨decl, hmembers, htype, hkeys⟩ := h.declared
    refine ⟨decl, hmembers, ?_, fun key hkey => hkeys key (h.mem_keys.mp hkey), ?_, ?_⟩
    · rw [h.find?_other (by decide) (by decide), htype]
    · intro v hv
      rcases h.find?_properties with ⟨-, hbuilt⟩ | ⟨-, results, -, hbuilt, -⟩
      · simp [hbuilt] at hv
      · rw [hbuilt, Option.some.injEq] at hv
        exact ⟨results, hv.symm⟩
    · intro v hv
      rcases h.find?_items with ⟨-, hbuilt⟩ | ⟨-, result, -, hbuilt, -, item, -, -, hitem, -⟩ |
        ⟨-, results, -, hbuilt, -⟩
      · simp [hbuilt] at hv
      · rw [hbuilt, Option.some.injEq] at hv
        exact Or.inl ⟨item, hv.symm.trans hitem⟩
      · rw [hbuilt, Option.some.injEq] at hv
        exact Or.inr ⟨results, hv.symm⟩

/-- What stands at a node position below a built node was built from a child of the merged one. -/
theorem Success.part (h : Success parent levels s node inherited built)
    (hu : Value.Unique (.object (assemble node inherited))) {w : Value}
    (hpart : Node.Part built w) :
    ∃ child result place, Node.Child (assemble node inherited) child ∧ w = .object result ∧
      Ends (buildNode parent levels place child) s (.ok result) s := by
  cases hpart with
  | property hprops hmem =>
    rcases h.find?_properties with ⟨-, hbuilt⟩ | ⟨children, results, hnode, hbuilt, hall⟩
    · simp [hbuilt] at hprops
    · rw [hbuilt, Option.some.injEq, Value.object.injEq] at hprops
      subst hprops
      obtain ⟨⟨name, v⟩, hentry, -, child, result, place, rfl, hw, hends⟩ :=
        exists_of_mem_right hall hmem
      exact ⟨child, result, place,
        .property hnode (Members.find?_of_mem (hu.find? hnode).keys hentry), hw, hends⟩
  | item hitem htuple =>
    rcases h.find?_items with ⟨-, hbuilt⟩ |
      ⟨item, result, hnode, hbuilt, child, members, place, rfl, rfl, hends⟩ |
        ⟨tuple, results, -, hbuilt, -⟩
    · simp [hbuilt] at hitem
    · rw [hbuilt, Option.some.injEq] at hitem
      exact ⟨child, members, place, .item hnode, hitem.symm, hends⟩
    · rw [hbuilt, Option.some.injEq] at hitem
      exact absurd hitem.symm (htuple results)
  | tupleItem htuple hmem =>
    rcases h.find?_items with ⟨-, hbuilt⟩ | ⟨item, result, -, hbuilt, -, members, -, -, rfl, -⟩ |
      ⟨tuple, results, hnode, hbuilt, hall⟩
    · simp [hbuilt] at htuple
    · simp [hbuilt] at htuple
    · rw [hbuilt, Option.some.injEq, Value.array.injEq] at htuple
      subst htuple
      obtain ⟨v, hv, child, result, place, rfl, hw, hends⟩ := exists_of_mem_right hall hmem
      exact ⟨child, result, place, .tupleItem hnode hv, hw, hends⟩

/-! ## Whole trees -/

/-- A tree that is built from parents without references is in the grammar. -/
theorem builtGrammar_of_ok (hu : Value.Unique (.object node))
    (hparent : ∀ reference, Reads s Resolved (parent reference))
    (h : Ends (buildNode parent levels location node) s (.ok built) t) :
    Node.BuiltGrammar (.object built) := by
  induction levels generalizing location node built t with
  | zero => exact absurd h Build.not_ends_unfinished
  | succ levels ih =>
    obtain ⟨inherited, hsuccess⟩ := buildNode_ok hu hparent h
    have hinherited := hsuccess.parents.resolved hparent
    have hunique : Value.Unique (.object (assemble node inherited)) :=
      unique_assemble hu fun members hmembers => (hinherited members hmembers).unique
    refine Node.builtGrammar_object_iff.mpr ⟨hsuccess.finished hu hinherited, fun w hw => ?_⟩
    obtain ⟨child, result, place, hchild, rfl, hends⟩ := hsuccess.part hunique hw
    exact ih (hchild.unique hunique) hends

end Building
end Schemata
