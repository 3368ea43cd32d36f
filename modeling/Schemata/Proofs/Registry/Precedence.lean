import Schemata.Proofs.Building.Precedence
import Schemata.Proofs.Registry.Answer

/-!
# Inheritance along the tree of references

The documents that a name inherits from are listed in preorder: its own document first, and then
for each reference of its root what that name inherits from.  There is at most one such list
(`Lineage.unique`).  What the built root has under a key is what the first document of the list
declares there.

A parent is merged from its text, so a declaration is printed and read back once for every level
that it is handed down.  That leaves whole numbers of 64 bits as they are, but not every number
that is stored as a float.
-/

namespace Schemata
namespace Registry

open Build (Ends Reads)
open Building (nonNull)
open Json (Members Value)

variable {σ : Type} {r : Registry σ} {s : σ} {levels : Nat} {chain : List String}
  {name text : String}

/-! ## The list of documents -/

/-- The document of a line is one reference further away. -/
def deeper (line : ℕ × Members) : ℕ × Members :=
  (line.1 + 1, line.2)

/-- The documents that the names inherit from, in preorder, with the number of references that lead
to each of them. -/
inductive Lineage (r : Registry σ) (s : σ) : List String → List (ℕ × Members) → Prop
  | nil : Lineage r s [] []
  | cons {name : String} {rest : List String} {document : Members}
      {above more : List (ℕ × Members)} : r.document? s name = some document →
        Lineage r s ((Node.ownReferences document).map (r.target (Name.directory name))) above →
          Lineage r s rest more →
            Lineage r s (name :: rest) ((0, document) :: above.map deeper ++ more)

theorem Lineage.unique {names : List String} {lines lines' : List (ℕ × Members)}
    (h : r.Lineage s names lines) (h' : r.Lineage s names lines') : lines = lines' := by
  induction h generalizing lines' with
  | nil =>
    cases h'
    rfl
  | cons hdocument _ _ ihabove ihmore =>
    cases h' with
    | cons hdocument' habove' hmore' =>
      rw [hdocument, Option.some.injEq] at hdocument'
      subst hdocument'
      rw [ihabove habove', ihmore hmore']

theorem Lineage.append {names : List String} {lines more : List (ℕ × Members)}
    (h : r.Lineage s [name] lines) (hmore : r.Lineage s names more) :
    r.Lineage s (name :: names) (lines ++ more) := by
  cases h with
  | cons hdocument habove hnil =>
    cases hnil
    rw [List.append_nil]
    exact .cons hdocument habove hmore

/-! ## What is handed down -/

/-- What the document of a line hands down under a key. -/
def declared (key : String) (line : ℕ × Members) : Option Value :=
  (Members.find? key line.2).map (Value.reread^[line.1])

/-- What it hands down under a key of a property's schema. -/
def declaredIn (property key : String) (line : ℕ × Members) : Option Value :=
  (Node.propertyKey? property key line.2).map (Value.reread^[line.1])

/-- The trees have what the lines hand down, taken in order. -/
structure Inherits (lines : List (ℕ × Members)) (trees : List Members) : Prop where
  resolved : ∀ built ∈ trees, Resolved built
  shaped : ∀ built ∈ trees, Node.Shaped built
  typed : ∀ built ∈ trees, (Members.find? "type" built).isSome
  keys : ∀ key, key ∉ buildKeys →
    trees.findSome? (Members.find? key) = lines.findSome? (declared key)
  properties : ∀ property, (∃ built ∈ trees, (Node.property? property built).isSome) ↔
    ∃ line ∈ lines, (Node.property? property line.2).isSome
  propertyKeys : ∀ property, (∀ line ∈ lines, Node.propertyKey? property "extends" line.2 = none) →
    ∀ key, key ∉ buildKeys →
      trees.findSome? (Node.propertyKey? property key) = lines.findSome? (declaredIn property key)

namespace Inherits

variable {lines more : List (ℕ × Members)} {trees others : List Members}

theorem nil : Inherits [] [] := by
  refine ⟨?_, ?_, ?_, ?_, ?_, ?_⟩ <;> simp

theorem append (h : Inherits lines trees) (hmore : Inherits more others) :
    Inherits (lines ++ more) (trees ++ others) where
  resolved := List.forall_mem_append.mpr ⟨h.resolved, hmore.resolved⟩
  shaped := List.forall_mem_append.mpr ⟨h.shaped, hmore.shaped⟩
  typed := List.forall_mem_append.mpr ⟨h.typed, hmore.typed⟩
  keys := by
    intro key hkey
    rw [List.findSome?_append, List.findSome?_append, h.keys key hkey, hmore.keys key hkey]
  properties := by
    intro property
    have hleft := h.properties property
    have hright := hmore.properties property
    simp only [List.mem_append, or_and_right, exists_or, hleft, hright]
  propertyKeys := by
    intro property hnone key hkey
    rw [List.forall_mem_append] at hnone
    rw [List.findSome?_append, List.findSome?_append, h.propertyKeys property hnone.1 key hkey,
      hmore.propertyKeys property hnone.2 key hkey]

end Inherits

theorem findSome?_cons_eq_or {α β : Type} {f : α → Option β} {a : α} {rest : List α} :
    (a :: rest).findSome? f = (f a).or (rest.findSome? f) := by
  rw [List.findSome?_cons]
  cases f a <;> rfl

theorem findSome?_map_of {α β : Type} {step : α → β} {f : β → Option Value} {g : α → Option Value}
    (h : ∀ a, f (step a) = (g a).map Value.reread) {items : List α} :
    (items.map step).findSome? f = (items.findSome? g).map Value.reread := by
  induction items with
  | nil => rfl
  | cons a rest ih =>
    rw [List.map_cons, findSome?_cons_eq_or, findSome?_cons_eq_or, h, ih]
    cases g a <;> rfl

theorem property?_rereadMembers {property : String} {node : Members} :
    Node.property? property (Value.rereadMembers node) =
      (Node.property? property node).map Value.reread := by
  unfold Node.property?
  rw [Value.find?_rereadMembers]
  cases Members.find? "properties" node with
  | none => rfl
  | some v =>
    cases v with
    | object children => exact Value.find?_rereadMembers property children
    | _ => rfl

theorem propertyKey?_rereadMembers {property key : String} {node : Members} :
    Node.propertyKey? property key (Value.rereadMembers node) =
      (Node.propertyKey? property key node).map Value.reread := by
  unfold Node.propertyKey?
  rw [property?_rereadMembers]
  cases Node.property? property node with
  | none => rfl
  | some v =>
    cases v with
    | object child => exact Value.find?_rereadMembers key child
    | _ => rfl

theorem shaped_rereadMembers {node : Members} (h : Node.Shaped node) :
    Node.Shaped (Value.rereadMembers node) where
  properties := by
    intro v hv
    rw [Value.find?_rereadMembers, Option.map_eq_some_iff] at hv
    obtain ⟨old, hold, rfl⟩ := hv
    obtain ⟨children, rfl⟩ := h.properties old hold
    exact ⟨Value.rereadMembers children, rfl⟩
  entries := by
    intro property v hv
    rw [property?_rereadMembers, Option.map_eq_some_iff] at hv
    obtain ⟨old, hold, rfl⟩ := hv
    obtain ⟨child, rfl⟩ := h.entries property old hold
    exact ⟨Value.rereadMembers child, rfl⟩

theorem declared_deeper (key : String) (line : ℕ × Members) :
    declared key (deeper line) = (declared key line).map Value.reread := by
  unfold declared deeper
  rw [Option.map_map, ← Function.iterate_succ']

theorem declaredIn_deeper (property key : String) (line : ℕ × Members) :
    declaredIn property key (deeper line) = (declaredIn property key line).map Value.reread := by
  unfold declaredIn deeper
  rw [Option.map_map, ← Function.iterate_succ']

namespace Inherits

variable {lines : List (ℕ × Members)} {trees : List Members}

/-- Trees that are read back hand down what they had, read back. -/
theorem reread (h : Inherits lines trees) :
    Inherits (lines.map deeper) (trees.map Value.rereadMembers) where
  resolved := by
    intro built hbuilt
    obtain ⟨tree, htree, rfl⟩ := List.mem_map.mp hbuilt
    exact (h.resolved tree htree).reread
  shaped := by
    intro built hbuilt
    obtain ⟨tree, htree, rfl⟩ := List.mem_map.mp hbuilt
    exact shaped_rereadMembers (h.shaped tree htree)
  typed := by
    intro built hbuilt
    obtain ⟨tree, htree, rfl⟩ := List.mem_map.mp hbuilt
    rw [Value.find?_rereadMembers, Option.isSome_map]
    exact h.typed tree htree
  keys := by
    intro key hkey
    rw [findSome?_map_of (Value.find?_rereadMembers key), findSome?_map_of (declared_deeper key),
      h.keys key hkey]
  properties := by
    intro property
    simp only [List.mem_map, exists_exists_and_eq_and, property?_rereadMembers, Option.isSome_map]
    exact h.properties property
  propertyKeys := by
    intro property hnone key hkey
    have hbefore : ∀ line ∈ lines, Node.propertyKey? property "extends" line.2 = none := by
      intro line hline
      exact hnone (deeper line) (List.mem_map_of_mem hline)
    rw [findSome?_map_of fun _ => propertyKey?_rereadMembers,
      findSome?_map_of (declaredIn_deeper property key), h.propertyKeys property hbefore key hkey]

/-- A built node comes before what its parents hand down. -/
theorem node {parent : String → Build σ Members} {document built : Members}
    (hu : Value.Unique (.object document))
    (hparent : ∀ reference, Reads s Resolved (parent reference))
    (h : Inherits lines trees) (hsuccess : Building.Success parent levels s document trees built)
    (hbuilt : Resolved built) : Inherits ((0, document) :: lines) [built] := by
  have htrees : ∀ members ∈ trees, Resolved members ∧ Node.Shaped members :=
    fun members hmembers => ⟨h.resolved members hmembers, h.shaped members hmembers⟩
  have hself : ∀ key, declared key (0, document) = Members.find? key document :=
    fun key => Option.map_id'
  have hselfIn : ∀ property key,
      declaredIn property key (0, document) = Node.propertyKey? property key document :=
    fun property key => Option.map_id'
  refine ⟨?_, ?_, ?_, ?_, ?_, ?_⟩
  · exact List.forall_mem_singleton.mpr hbuilt
  · exact List.forall_mem_singleton.mpr hsuccess.shaped
  · rw [List.forall_mem_singleton, hsuccess.find?_type hu htrees, Option.isSome_or]
    simp
  · intro key hkey
    have hfind := hsuccess.find?_built hu htrees hkey
    rw [h.keys key hkey] at hfind
    rw [findSome?_cons_eq_or, findSome?_cons_eq_or, hself, List.findSome?_nil, Option.or_none,
      hfind]
  · intro property
    have hsome : (Node.property? property built).isSome ↔
        (Node.property? property document).isSome ∨
        ∃ members ∈ trees, (Node.property? property members).isSome :=
      hsuccess.isSome_property? hu htrees
    rw [h.properties property] at hsome
    simpa using hsome
  · intro property hnone key hkey
    rw [List.forall_mem_cons] at hnone
    have hfind := hsuccess.propertyKey? hu htrees hparent hnone.1 hkey
    rw [h.propertyKeys property hnone.2 key hkey] at hfind
    rw [findSome?_cons_eq_or, findSome?_cons_eq_or, hselfIn, List.findSome?_nil, Option.or_none,
      hfind]

end Inherits

/-! ## Along a build -/

end Registry
end Schemata
