import Schemata.Proofs.Registry.Answer
import Schemata.Proofs.Registry.Idempotence

/-!
# Aliases

A node that names a parent and nothing else is an alias of it.  Its build merges the parent's tree
into an empty node, which only permutes the members of the root, and then builds the tree once
more.  The tree of a parent was built before, so the second build finds nothing in it to change, to
drop or to reject: up to the order of keys, an alias is built into the tree of its parent.
-/

namespace Schemata

open Build (Ends)
open Json (Members Reordered Value depthLimit)

namespace Building

/-- The node that names a parent and nothing else. -/
def aliasOf (reference : String) : Members :=
  [("extends", .string reference)]

variable {σ : Type} {s t u : σ} {parent : String → Build σ Members} {levels : Nat}
  {location : Pointer} {inherited : Members} {reference : String}

theorem unique_aliasOf : Value.Unique (.object (aliasOf reference)) := by
  refine Value.unique_object_iff.mpr ⟨List.nodup_singleton _, fun entry hentry => ?_⟩
  obtain rfl := List.mem_singleton.mp hentry
  exact Value.unique_of_ne_container (by simp) (by simp)

theorem mentions_aliasOf : Node.Mentions (aliasOf reference) reference :=
  Node.mentions_of_own List.mem_cons_self

/-! ## Into the merged tree -/

/-- Once its parent is answered, an alias is prepared as the merged tree is. -/
theorem ends_prepare_aliasOf {result : Except SchemaError Members}
    (hparent : Ends (parent reference) s (.ok inherited) u)
    (hfinished : Node.Finished (extend [] inherited)) :
    Ends (prepare parent location (aliasOf reference)) s result t ↔
      Ends (prepare parent location (extend [] inherited)) u result t := by
  have halias : Ends (inheritParents parent location (dropNullType (aliasOf reference))) s
      (.ok (extend [] inherited)) u := by
    have hdropped : dropNullType (aliasOf reference) = aliasOf reference := rfl
    rw [hdropped, inheritParents_of_reference rfl]
    exact Build.ends_bind_pure_ok.mpr ⟨inherited, hparent, rfl⟩
  have hmerged : Ends (inheritParents parent location (dropNullType (extend [] inherited))) u
      (.ok (extend [] inherited)) u := by
    rw [hfinished.dropNullType_eq_self, inheritParents_of_none hfinished.noReference]
    exact Build.ends_pure.mpr ⟨rfl, rfl⟩
  unfold prepare
  rw [Build.ends_bind_of_ok halias, Build.ends_bind_of_ok hmerged]

/-- Once its parent is answered, an alias is built as the merged tree is. -/
theorem ends_buildNode_aliasOf {result : Except SchemaError Members}
    (hparent : Ends (parent reference) s (.ok inherited) u)
    (hfinished : Node.Finished (extend [] inherited)) :
    Ends (buildNode parent levels location (aliasOf reference)) s result t ↔
      Ends (buildNode parent levels location (extend [] inherited)) u result t := by
  cases levels with
  | zero => simp [buildNode]
  | succ levels =>
    rw [buildNode, buildNode, Build.ends_bind, Build.ends_bind]
    simp only [ends_prepare_aliasOf hparent hfinished]

/-! ## The merged tree once more -/

theorem builtGrammar_extend_nil (hbuilt : Node.BuiltGrammar (.object inherited))
    (hu : Value.Unique (.object inherited)) : Node.BuiltGrammar (.object (extend [] inherited)) :=
  hbuilt.perm hu.keys (Inheritance.perm_extend_nil hu.keys).symm

/-- With a built tree for a parent, an alias is built into that tree, with its root in the order
that merging leaves. -/
theorem aliasOf_ok (hparent : Ends (parent reference) s (.ok inherited) s)
    (hbuilt : Node.BuiltGrammar (.object inherited)) (hu : Value.Unique (.object inherited))
    (hlevels : Value.nesting (.object inherited) ≤ levels) :
    Ends (buildNode parent levels location (aliasOf reference)) s
      (.ok (extend [] inherited)) s := by
  have hperm := Inheritance.perm_extend_nil hu.keys
  have hmerged := builtGrammar_extend_nil hbuilt hu
  rw [ends_buildNode_aliasOf hparent (Node.builtGrammar_object_iff.mp hmerged).1]
  refine ends_buildNode_of_builtGrammar hmerged ((Reordered.order hperm.symm).unique hu) ?_
  rwa [Value.nesting_perm hperm]

end Building

namespace Registry

open Building (aliasOf)

variable {σ : Type} {r : Registry σ} {s t : σ} {levels : Nat} {chain : List String}
  {directory reference text name other : String} {members : Members} {v : Value}

/-- What a fetched text holds is a built tree. -/
theorem builtGrammar_of_parse (hfetch : Ends (r.fetch false levels chain name) s (.ok text) t)
    (hparse : parseDocument other text = .ok members) : Node.BuiltGrammar (.object members) := by
  obtain ⟨built, hresolved, hbuilt, rfl⟩ := builtGrammar_of_fetch hfetch
  obtain ⟨rfl, -⟩ := eq_of_parseDocument_compact hresolved.unique hparse
  have hread := hbuilt.reread
  rwa [Value.reread] at hread

/-- With levels enough an alias is built if the text of its parent is a document. -/
theorem ends_buildTree_aliasOf (huncached : r.usesCache = false)
    (hfetch : Ends (r.fetch false levels [] (r.target directory reference)) s (.ok text) s)
    (hparse : parseDocument (r.target directory reference) text = .ok members)
    (hlevels : depthLimit ≤ levels) :
    Ends (r.buildTree levels directory (.object (aliasOf reference))) s
      (.ok (.object (extend [] members))) s := by
  refine ends_buildTree_ok.mpr ⟨_, _, rfl, rfl, ?_⟩
  rw [huncached]
  have hparent : Ends (r.parent (r.fetch false levels) [] directory reference) s (.ok members) s :=
    ends_parent_ok.mpr ⟨List.not_mem_nil, text, hfetch, hparse⟩
  exact Building.aliasOf_ok hparent (builtGrammar_of_parse hfetch hparse)
    (unique_of_parseDocument hparse) (Nat.le_trans (nesting_le_of_parseDocument hparse) hlevels)

/-- An alias is built only if the text of its parent is a document, and into what that holds. -/
theorem exists_text_of_aliasOf (huncached : r.usesCache = false)
    (h : Ends (r.buildTree levels directory (.object (aliasOf reference))) s (.ok v) t) :
    t = s ∧ ∃ text members,
      Ends (r.fetch false levels [] (r.target directory reference)) s (.ok text) s ∧
        parseDocument (r.target directory reference) text = .ok members ∧
          v = .object (extend [] members) := by
  obtain ⟨node, built, hnode, rfl, hbuild⟩ := ends_buildTree_ok.mp h
  obtain rfl := Value.object.inj hnode
  have hparents : ∀ other, Build.Reads s Resolved
      (r.parent (r.fetch r.usesCache levels) [] directory other) :=
    reads_parent_uncached huncached levels [] directory
  obtain ⟨members, hparent⟩ := Building.exists_answer_of_ok Building.unique_aliasOf hparents
    hbuild Building.mentions_aliasOf
  obtain ⟨-, text, hfetch, hparse⟩ := ends_parent_ok.mp hparent
  rw [huncached] at hfetch
  -- The build at hand may have just enough levels, so it is compared with one that has more.
  have hmore : Ends (Building.buildNode (r.parent (r.fetch r.usesCache levels) [] directory)
      (max levels depthLimit) [] (aliasOf reference)) s (.ok (extend [] members)) s :=
    Building.aliasOf_ok hparent (builtGrammar_of_parse hfetch hparse)
      (unique_of_parseDocument hparse)
      (Nat.le_trans (nesting_le_of_parseDocument hparse) (Nat.le_max_right _ _))
  obtain ⟨hsame, rfl⟩ := (Building.approximates_buildNode (Nat.le_max_left _ _)
    (fun _ => .refl _) _ _ _ hbuild).unique hmore
  exact ⟨rfl, text, members, hfetch, hparse, congrArg Value.object (Except.ok.inj hsame)⟩

/-- An alias adds nothing to its parent.  If it is built without a cache, its parent has a text,
and the tree is what that text holds, up to the order of keys; and if its parent has a text that
is a document, it is built. -/
theorem alias_is_its_parent (huncached : r.usesCache = false) (s : σ)
    (directory reference : String) :
    (∀ levels v t,
      Ends (r.buildTree levels directory (.object (aliasOf reference))) s (.ok v) t →
        t = s ∧ ∃ text parsed,
          Ends (r.getSchemaUncached levels (r.resolve reference directory)) s (.ok text) s ∧
            Value.read text = .ok parsed ∧ Reordered v parsed) ∧
    ∀ levels text members t,
      Ends (r.getSchemaUncached levels (r.resolve reference directory)) s (.ok text) t →
        Value.read text = .ok (.object members) →
          ∃ v, Reordered v (.object members) ∧ Eventually fun levels =>
            Ends (r.buildTree levels directory (.object (aliasOf reference))) s (.ok v) s := by
  have hreordered : ∀ {text members}, Value.read text = .ok (.object members) →
      Reordered (.object (extend [] members)) (.object members) := fun hread =>
    .order (Inheritance.perm_extend_nil (Value.unique_of_read hread).keys)
  constructor
  · intro levels v t h
    obtain ⟨hstate, text, members, hfetch, hparse, rfl⟩ := exists_text_of_aliasOf huncached h
    have hread := parseDocument_eq_ok.mp hparse
    rw [target, fetch_normalize] at hfetch
    exact ⟨hstate, text, .object members, hfetch, hread, hreordered hread⟩
  · intro levels text members t hfetch hread
    obtain rfl := (reads_fetch levels [] _ _ _ hfetch).1
    rw [getSchemaUncached, ← fetch_normalize] at hfetch
    refine ⟨_, hreordered hread, max levels depthLimit, fun more hmore => ?_⟩
    have hmore' := approximates_fetch (Nat.le_trans (Nat.le_max_left _ _) hmore) _ _ _ _ _ hfetch
    exact ends_buildTree_aliasOf huncached hmore' (parseDocument_eq_ok.mpr hread)
      (Nat.le_trans (Nat.le_max_right _ _) hmore)

/-- A document in a directory, with a node inside. -/
def nested : Registry Unit :=
  .ofTexts [("d/p", "\x7b\"properties\":\x7b\"x\":\x7b\x7d\x7d\x7d")]

/-- What the document holds under `properties`, built. -/
def innerProperties : Value :=
  .object [("x", .object [("type", .string "any")])]

/-- The document, built. -/
def nestedTree : Members :=
  [("properties", innerProperties), ("type", .string "any")]

/-- The alias, built: merging moves the properties behind the type. -/
def nestedAlias : Value :=
  .object [("type", .string "any"), ("properties", innerProperties)]

theorem ends_nested :
    Ends (nested.buildTree 3 "d" (.object (aliasOf "p"))) () (.ok nestedAlias) () ∧
      Ends (nested.getSchemaUncached 3 "d/p") () (.ok (Value.object nestedTree).compact) () ∧
      Value.read (Value.object nestedTree).compact = .ok (.object nestedTree) := by
  unfold Ends
  decide +kernel

theorem nested_and_its_alias :
    nested.usesCache = false ∧ nested.resolve "p" "d" = "d/p" ∧
      Ends (nested.buildTree 3 "d" (.object (aliasOf "p"))) () (.ok nestedAlias) () ∧
      Ends (nested.getSchemaUncached 3 "d/p") () (.ok (Value.object nestedTree).compact) () ∧
      Value.read (Value.object nestedTree).compact = .ok (.object nestedTree) ∧
      Reordered nestedAlias (.object nestedTree) ∧
      ∃ v, Reordered v (.object nestedTree) ∧ Eventually fun levels =>
        Ends (nested.buildTree levels "d" (.object (aliasOf "p"))) () (.ok v) () := by
  have hresolve : nested.resolve "p" "d" = "d/p" := by decide
  obtain ⟨halias, htree, hread⟩ := ends_nested
  obtain ⟨hbuilt, hconverse⟩ := alias_is_its_parent (r := nested) rfl () "d" "p"
  rw [hresolve] at hbuilt hconverse
  obtain ⟨-, text, parsed, hends, hparsed, hreordered⟩ := hbuilt 3 _ () halias
  obtain rfl := Except.ok.inj (hends.unique htree).1
  obtain rfl := Except.ok.inj (hparsed.symm.trans hread)
  exact ⟨rfl, hresolve, halias, htree, hread, hreordered,
    hconverse 3 _ nestedTree () htree hread⟩

end Registry
end Schemata
