import Schemata.Proofs.Building.Acceptance
import Schemata.Proofs.Registry.Document

/-!
# What a registry accepts

A schema tree without references is built without any look at documents or cache.  So whether it is
accepted, and into what it is built, depends on the tree alone.
-/

namespace Schemata
namespace Registry

open Build (Ends)
open Building (defaultType typed)
open Json (Members Reordered Value)
open Node (InGrammar NoReferences mapNodes)

variable {σ : Type} (r : Registry σ) (s : σ) {levels : Nat} (directory : String) {d : Value}

/-- A tree without references is built exactly if it is in the grammar. -/
theorem decides_buildTree (hd : d.Unique) (hclosed : NoReferences d)
    (hlevels : d.nesting ≤ levels) :
    Build.Decides s (InGrammar d) (mapNodes typed d) (r.buildTree levels directory d) := by
  cases d with
  | object node =>
    refine Build.Decides.congr
      (.bind (Building.decides_buildNode hd hclosed hlevels) fun _ => .pure) ?_
    simp
  | _ =>
    refine .throw fun h => ?_
    obtain ⟨node, hnode⟩ := h.object
    simp at hnode

/-- A tree without references is accepted exactly if each of its nodes is an object with a type in
the vocabulary, if any, that allows its keys, and with children where children may be.  What is
built differs from the tree in the order of keys, and in that absent and null types are `any`. -/
theorem accepts_grammar (hd : d.Unique) (hclosed : NoReferences d) (hlevels : d.nesting ≤ levels) :
    (∃ result, Ends (r.buildTree levels directory d) s result s) ∧
    ((∃ built t, Ends (r.buildTree levels directory d) s (.ok built) t) ↔ InGrammar d) ∧
    ∀ built t, Ends (r.buildTree levels directory d) s (.ok built) t →
      t = s ∧ Reordered (mapNodes defaultType d) built := by
  have hdecides := r.decides_buildTree s directory hd hclosed hlevels
  refine ⟨hdecides.finishes, ⟨?_, fun h => ⟨_, s, hdecides.ok_iff.mpr ⟨h, rfl, rfl⟩⟩⟩, ?_⟩
  · rintro ⟨built, t, h⟩
    exact (hdecides.ok_iff.mp h).1
  · intro built t h
    obtain ⟨-, rfl, rfl⟩ := hdecides.ok_iff.mp h
    exact ⟨rfl, Node.reordered_mapNodes Building.retypes_defaultType Building.retypes_typed hd⟩

/-- A tree with a null type and an absent one. -/
def sparse : Value :=
  .object [("type", .null), ("properties", .object [("x", .object [("description", .string "d")])])]

theorem noReferences_sparse : NoReferences sparse := by
  apply Node.noReferences_of_properties rfl rfl rfl
  rw [List.forall_mem_singleton]
  exact Node.noReferences_leaf rfl rfl rfl

theorem ends_sparse :
    Ends ((ofTexts []).buildTree 4 "" sparse) () (.ok (mapNodes typed sparse)) () := by
  unfold Ends
  decide +kernel

theorem sparse_is_accepted :
    sparse.Unique ∧ NoReferences sparse ∧ sparse.nesting ≤ 4 ∧
      (∃ result, Ends ((ofTexts []).buildTree 4 "" sparse) () result ()) ∧ InGrammar sparse ∧
      Reordered (mapNodes defaultType sparse) (mapNodes typed sparse) := by
  have hunique : sparse.Unique := by
    have hmerged : sparse.mergeDuplicates = sparse := by decide +kernel
    exact hmerged ▸ Value.unique_mergeDuplicates sparse
  have hnesting : sparse.nesting ≤ 4 := by decide +kernel
  obtain ⟨hends, haccepted, hbuilt⟩ :=
    accepts_grammar (ofTexts []) () "" hunique noReferences_sparse hnesting
  exact ⟨hunique, noReferences_sparse, hnesting, hends, haccepted.mp ⟨_, _, ends_sparse⟩,
    (hbuilt _ _ ends_sparse).2⟩

end Registry
end Schemata
