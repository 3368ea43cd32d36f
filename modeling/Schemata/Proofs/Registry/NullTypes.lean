import Schemata.Proofs.Building.NullTypes
import Schemata.Proofs.Registry.Grammar
import Schemata.Proofs.Registry.Termination

/-!
# Null types in a registry

Without a cache every parent is a built tree, read back.  So a null type in a document counts as
absent unless a parent declares the property that carries it: there the type of the parent is lost,
and the property has the type of its own first parent or the default type.
-/

namespace Schemata
namespace Registry

open Build (Alike Ends)
open Building (Answered BuiltParents UndisputedBelow)
open Json (Members Reordered Value)
open Node (NullTyped mapNodes withoutNull)

variable {σ : Type} {r : Registry σ} {s : σ} {levels : Nat} {directory : String}

/-- The parents of a tree that belongs to a directory. -/
def inlineParent (r : Registry σ) (levels : Nat) (directory reference : String) :
    Build σ Members :=
  r.parent (r.fetch r.usesCache levels) [] directory reference

theorem builtParents_inlineParent (huncached : r.usesCache = false) :
    BuiltParents (r.inlineParent levels directory) s := by
  intro reference result t h
  obtain ⟨rfl, hresolved⟩ :=
    reads_parent_uncached huncached levels [] directory reference result t h
  refine ⟨rfl, fun members hmembers => ⟨hresolved members hmembers, ?_⟩⟩
  subst hmembers
  obtain ⟨-, text, htext, hparse⟩ := ends_parent_ok.mp h
  rw [huncached] at htext
  obtain ⟨built, hbuilt, hgrammar, rfl⟩ := builtGrammar_of_fetch htext
  rw [(eq_of_parseDocument_compact hbuilt.unique hparse).1]
  simpa [Value.reread] using hgrammar.reread

/-- A tree without disputed null types is built like the same tree without its null types. -/
theorem alike_buildTree (huncached : r.usesCache = false) {d : Value} (hd : d.Unique)
    (h : UndisputedBelow (r.inlineParent levels directory) s d) :
    Alike s Reordered (r.buildTree levels directory d)
      (r.buildTree levels directory (mapNodes withoutNull d)) := by
  cases d with
  | object node =>
    exact Alike.bind (Building.alike_buildNode (builtParents_inlineParent huncached) hd h)
      fun built built' hsame => .pure hsame
  | _ => exact .throw

/-- Without a cache the null types of a tree may be erased, wherever they stand, as long as no
parent of a node declares a property that the node declares with a null type: both trees are built,
into trees that are equal up to the order of keys, or neither is; and over finitely many documents
the builds end.  A property of the root with a null type, on the other hand, takes no type from the
parents of the root: it has the type of its own first parent, or the default type. -/
theorem null_types_hide_inherited (r : Registry σ) (s : σ) (directory : String) (d : Value)
    (hcaching : r.caching = false) (hd : d.Unique) :
    (∀ levels, UndisputedBelow (r.inlineParent levels directory) s d →
      Alike s Reordered (r.buildTree levels directory d)
        (r.buildTree levels directory (mapNodes withoutNull d))) ∧
    (∀ names levels, r.StoredAmong s names → d.nesting + levelsFor names.length 0 ≤ levels →
      ∃ result, Ends (r.buildTree levels directory d) s result s) ∧
    ∀ (levels : Nat) (node built : Members) (name : String) (t : σ), d = .object node →
      NullTyped name node → Ends (r.buildTree levels directory d) s (.ok (.object built)) t →
        ∃ child inherited, Node.property? name node = some (.object child) ∧
          Answered (r.inlineParent levels directory) s (Node.ownReferences child) inherited ∧
            Node.propertyKey? name "type" built =
              (inherited.findSome? (Members.find? "type")).or
                (some (.string SchemaType.default.name)) := by
  have huncached : r.usesCache = false := by simp [usesCache, hcaching]
  refine ⟨fun levels => alike_buildTree huncached hd, ?_, ?_⟩
  · intro names levels hnames hlevels
    obtain ⟨result, hends, -⟩ := finishes_buildTree hnames huncached hd hlevels directory
    exact ⟨result, hends⟩
  rintro levels node built name t rfl hnull h
  obtain ⟨found, members, hfound, hmembers, hends⟩ := ends_buildTree_ok.mp h
  rw [Value.object.injEq] at hfound hmembers
  subst hfound hmembers
  have hparent : BuiltParents (r.inlineParent levels directory) s :=
    builtParents_inlineParent huncached
  obtain ⟨rfl, -⟩ := Building.reads_buildNode hd hparent.reads _ _ hends
  exact Building.type_of_nullTyped hparent hd hnull hends

/-- A parent with a typed property. -/
def typing : Registry Unit :=
  .ofTexts [("p", "\x7b\"properties\":\x7b\"x\":\x7b\"type\":\"string\"\x7d\x7d" ++
    ",\"type\":\"object\"\x7d")]

/-- An heir that declares a property with a null type. -/
def heir (name : String) : Members :=
  [("extends", .string "p"), ("properties", .object [(name, .object [("type", .null)])])]

/-- The heir as it is built if its property has the given type. -/
def settledHeir (type : String) : Members :=
  [("properties", .object [("x", .object [("type", .string type)])]), ("type", .string "object")]

theorem ends_inlineParent_typing :
    Ends (typing.inlineParent 4 "" "p") () (.ok (settledHeir "string")) () := by
  unfold Ends
  decide +kernel

theorem unique_heir (name : String) : Value.Unique (.object (heir name)) := by
  have hmerged : Value.mergeDuplicates (.object (heir name)) = .object (heir name) := by
    rfl
  exact hmerged ▸ Value.unique_mergeDuplicates _

theorem part_heir {name : String} {part : Value} (h : Node.Part (heir name) part) :
    part = .object [("type", .null)] := by
  obtain ⟨found, hmem⟩ := h.exists_mem rfl rfl
  exact (Prod.mk.inj (List.mem_singleton.mp hmem)).2

theorem eq_of_nullTyped_heir {name other : String} (h : NullTyped other (heir name)) :
    other = name := by
  obtain ⟨children, child, hprops, hchild, -⟩ := Node.exists_of_nullTyped h
  obtain rfl : [(name, .object [("type", .null)])] = children := by
    simpa [heir, Members.find?] using hprops
  exact (Prod.mk.inj (List.mem_singleton.mp (Members.mem_of_find? hchild))).1

theorem undisputedBelow_heir :
    UndisputedBelow (typing.inlineParent 4 "") () (.object (heir "y")) := by
  refine Building.undisputedBelow_object_iff.mpr ⟨?_, ?_⟩
  · intro reference hreference members hends name hnull
    obtain rfl : reference = "p" := List.mem_singleton.mp hreference
    obtain ⟨hmembers, -⟩ := hends.unique ends_inlineParent_typing
    rw [eq_of_nullTyped_heir hnull, Except.ok.inj hmembers]
    rfl
  · intro part hpart
    rw [part_heir hpart]
    exact Building.undisputedBelow_of_noReferences (Node.noReferences_leaf rfl rfl rfl)

theorem ends_heir :
    Ends (typing.buildTree 4 "" (.object (heir "x"))) ()
        (.ok (.object (settledHeir SchemaType.default.name))) () ∧
      Ends (typing.buildTree 4 "" (mapNodes withoutNull (.object (heir "x")))) ()
        (.ok (.object (settledHeir "string"))) () := by
  unfold Ends
  decide +kernel

/-- An heir that is built alike without its null type, and one that has a type without it but not
with it. -/
theorem null_hides_type_of_parent :
    typing.caching = false ∧ (∀ name, Value.Unique (.object (heir name))) ∧
      UndisputedBelow (typing.inlineParent 4 "") () (.object (heir "y")) ∧
      Alike () Reordered (typing.buildTree 4 "" (.object (heir "y")))
        (typing.buildTree 4 "" (mapNodes withoutNull (.object (heir "y")))) ∧
      typing.StoredAmong () ["p"] ∧
      (∃ result, Ends (typing.buildTree (Value.nesting (.object (heir "y")) + levelsFor 1 0) ""
        (.object (heir "y"))) () result ()) ∧
      NullTyped "x" (heir "x") ∧
      Ends (typing.buildTree 4 "" (.object (heir "x"))) ()
        (.ok (.object (settledHeir SchemaType.default.name))) () ∧
      Ends (typing.buildTree 4 "" (mapNodes withoutNull (.object (heir "x")))) ()
        (.ok (.object (settledHeir "string"))) () ∧
      ∃ child inherited, Node.property? "x" (heir "x") = some (.object child) ∧
        Answered (typing.inlineParent 4 "") () (Node.ownReferences child) inherited ∧
          Node.propertyKey? "x" "type" (settledHeir SchemaType.default.name) =
            (inherited.findSome? (Members.find? "type")).or
              (some (.string SchemaType.default.name)) := by
  have hnull : NullTyped "x" (heir "x") := ⟨[("type", .null)], rfl, rfl⟩
  have hstored : typing.StoredAmong () ["p"] := storedAmong_ofTexts
  obtain ⟨halike, hends, -⟩ := null_types_hide_inherited typing () "" _ rfl (unique_heir "y")
  obtain ⟨-, -, htype⟩ := null_types_hide_inherited typing () "" _ rfl (unique_heir "x")
  exact ⟨rfl, unique_heir, undisputedBelow_heir, halike 4 undisputedBelow_heir, hstored,
    hends ["p"] _ hstored (Nat.le_refl _), hnull, ends_heir.1, ends_heir.2,
    htype 4 _ _ "x" () rfl hnull ends_heir.1⟩

end Registry
end Schemata
