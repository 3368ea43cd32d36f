import Schemata.Proofs.Registry.Acceptance
import Schemata.Proofs.Registry.Grammar

/-!
# Building twice

Every node of a built tree is finished: it has no references left, and a type that is not null.
Filling in types leaves such a node as it is, in the order of its keys too.  So a built tree is a
fixed point of building, whichever registry it is built against.
-/

namespace Schemata

open Build (Ends)
open Json (Members Value)

namespace Node

open Building (dropNullType nonNull typed)

variable {node : Members} {v : Value}

theorem nonNull_toValue (decl : TypeDecl) : nonNull (some decl.toValue) = some decl.toValue := by
  unfold nonNull
  split
  · case h_1 hnull => exact absurd (Option.some.inj hnull) decl.toValue_ne_null
  · rfl

/-- The grammar admits finished nodes. -/
theorem Finished.admitted (h : Finished node) : Admitted node := by
  obtain ⟨decl, hmembers, htype, hallowed⟩ := h.declared
  refine ⟨decl, hmembers, ?_, hallowed⟩
  rw [declaredType, htype, nonNull_toValue, Option.getD_some]

theorem Finished.dropNullType_eq_self (h : Finished node) : dropNullType node = node := by
  obtain ⟨decl, -, htype, -⟩ := h.declared
  exact Building.dropNullType_of_find? htype decl.toValue_ne_null

/-- Filling in the type leaves a finished node as it is. -/
theorem Finished.typed_eq_self (h : Finished node) : typed node = node := by
  obtain ⟨decl, -, htype, -⟩ := h.declared
  rw [typed, h.dropNullType_eq_self, Members.addMissing_of_mem (Members.mem_keys_of_find? htype)]

/-- What builds produce they accept. -/
theorem BuiltGrammar.inGrammar (h : BuiltGrammar v) : InGrammar v := by
  intro w hw
  obtain ⟨node, hnode, hfinished⟩ := h w hw
  exact ⟨node, hnode, hfinished.admitted⟩

theorem BuiltGrammar.mapNodes_eq_self (h : BuiltGrammar v) (hu : v.Unique) :
    Node.mapNodes typed v = v := by
  apply Node.mapNodes_eq_self hu
  intro node hnode
  obtain ⟨found, hfound, hfinished⟩ := h _ hnode
  rw [Value.object.injEq] at hfound
  exact hfound ▸ hfinished.typed_eq_self

end Node

/-- A tree of finished nodes is built into itself, whatever its parents. -/
theorem Building.ends_buildNode_of_builtGrammar {σ : Type} {s : σ}
    {parent : String → Build σ Members} {levels : Nat} {location : Pointer} {node : Members}
    (hb : Node.BuiltGrammar (.object node)) (hu : Value.Unique (.object node))
    (hlevels : Value.nesting (.object node) ≤ levels) :
    Ends (buildNode parent levels location node) s (.ok node) s := by
  have hsettled : settled node = node := by
    have hsame := hb.mapNodes_eq_self hu
    rwa [Node.mapNodes, Value.object.injEq] at hsame
  have hdecides : Build.Decides s (Node.InGrammar (.object node)) (settled node)
      (buildNode parent levels location node) :=
    decides_buildNode hu hb.noReferences hlevels
  exact hdecides.ok_iff.mpr ⟨hb.inGrammar, hsettled.symm, rfl⟩

namespace Registry

variable {σ τ : Type} {r : Registry σ} {s t : σ} {levels : Nat} {directory : String} {d b : Value}

theorem reads_buildTree (huncached : r.usesCache = false) (hd : d.Unique)
    (h : Ends (r.buildTree levels directory d) s (.ok b) t) : t = s ∧ b.Unique := by
  obtain ⟨node, members, rfl, rfl, hends⟩ := ends_buildTree_ok.mp h
  obtain ⟨hstate, hresolved⟩ := Building.reads_buildNode hd
    (fun reference => reads_parent_uncached huncached levels [] directory reference) _ _ hends
  exact ⟨hstate, (hresolved members rfl).unique⟩

/-- A tree of finished nodes is built into itself by every registry, from every directory and in
every state. -/
theorem ends_buildTree_of_builtGrammar (hb : Node.BuiltGrammar b) (hu : b.Unique)
    (r : Registry σ) (s : σ) (directory : String) (hlevels : b.nesting ≤ levels) :
    Ends (r.buildTree levels directory b) s (.ok b) s := by
  obtain ⟨node, rfl⟩ := hb.inGrammar.object
  exact ends_buildTree_ok.mpr ⟨node, node, rfl, rfl,
    Building.ends_buildNode_of_builtGrammar hb hu hlevels⟩

/-- Building is idempotent: what a registry builds without a cache, every registry builds into
itself, with caching or without, and touches neither documents nor cache. -/
theorem buildTree_buildTree (huncached : r.usesCache = false) (hd : d.Unique)
    (h : Ends (r.buildTree levels directory d) s (.ok b) t) :
    t = s ∧ ∀ {τ : Type} (r' : Registry τ) (s' : τ) (directory' : String) (levels' : Nat),
      b.nesting ≤ levels' → Ends (r'.buildTree levels' directory' b) s' (.ok b) s' := by
  have hbuilt := builtGrammar_of_buildTree huncached hd h
  obtain ⟨hstate, hu⟩ := reads_buildTree huncached hd h
  constructor
  · exact hstate
  · intro τ r' s' directory' levels' hlevels
    exact ends_buildTree_of_builtGrammar hbuilt hu r' s' directory' hlevels

theorem narrow_is_kept :
    narrowed.usesCache = false ∧ narrowing.Unique ∧
      Ends (narrowed.buildTree 4 "" narrowing) () (.ok narrow) () ∧ narrow.nesting ≤ 4 ∧
      Ends ((ofTexts []).buildTree 4 "other" narrow) () (.ok narrow) () := by
  have hnesting : narrow.nesting ≤ 4 := by decide +kernel
  have hkept := (buildTree_buildTree rfl unique_narrowing ends_narrowing).2 (ofTexts []) ()
    "other" 4 hnesting
  exact ⟨rfl, unique_narrowing, ends_narrowing, hnesting, hkept⟩

end Registry
end Schemata
