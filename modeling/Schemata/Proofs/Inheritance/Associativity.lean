import Schemata.Proofs.Inheritance
import Schemata.Proofs.Json.Reordered

/-!
# Inheriting from a chain and from a list

A node may inherit from several parents in turn, or from one parent that has itself inherited from
the next.  Merging fills gaps on two levels, by different rules, but on each level it asks the same
three nodes in the same order; so `extend` is associative up to the order of keys, and a list of
parents comes to the same as a chain of them.
-/

namespace Schemata
namespace Inheritance

open Json (Members Reordered Value)

/-! ## Filling gaps is associative -/

variable {own middle last : Members}

theorem fill_assoc (hown : Members.UniqueKeys own) :
    Reordered (.object (fill (fill own middle) last)) (.object (fill own (fill middle last))) := by
  refine .of_find? (uniqueKeys_fill (uniqueKeys_fill hown)) (uniqueKeys_fill hown) fun key => ?_
  rw [find?_fill, find?_fill, find?_fill, find?_fill, Option.or_assoc]
  exact Reordered.rel_refl _

/-- A way to combine what two nodes say under a key, if one of them may be silent and objects are
joined: it is associative if joining is. -/
theorem rel_combine_assoc {combine : Option Value → Option Value → Option Value}
    {join : Members → Members → Members} (hleft : ∀ found, combine none found = found)
    (hright : ∀ found, combine found none = found)
    (hjoin : ∀ mine theirs,
      combine (some (.object mine)) (some (.object theirs)) = some (.object (join mine theirs)))
    {x y z : Option Value} (hx : ∀ v, x = some v → ∃ members, v = .object members)
    (hy : ∀ v, y = some v → ∃ members, v = .object members)
    (hz : ∀ v, z = some v → ∃ members, v = .object members)
    (hassoc : ∀ a b c, x = some (.object a) → y = some (.object b) → z = some (.object c) →
      Reordered (.object (join (join a b) c)) (.object (join a (join b c)))) :
    Option.Rel Reordered (combine (combine x y) z) (combine x (combine y z)) := by
  cases x with
  | none =>
    rw [hleft, hleft]
    exact Reordered.rel_refl _
  | some v =>
    cases y with
    | none =>
      rw [hright, hleft]
      exact Reordered.rel_refl _
    | some w =>
      cases z with
      | none =>
        rw [hright, hright]
        exact Reordered.rel_refl _
      | some u =>
        obtain ⟨a, rfl⟩ := hx v rfl
        obtain ⟨b, rfl⟩ := hy w rfl
        obtain ⟨c, rfl⟩ := hz u rfl
        rw [hjoin, hjoin, hjoin, hjoin]
        exact .some (hassoc a b c rfl rfl rfl)

/-! ## Merging properties is associative -/

/-- Every property has an object for its schema. -/
def HoldsObjects (children : Members) : Prop :=
  ∀ entry ∈ children, ∃ child, entry.2 = .object child

theorem HoldsObjects.find? {children : Members} {name : String} {v : Value}
    (h : HoldsObjects children) (hfind : Members.find? name children = some v) :
    ∃ child, v = .object child :=
  h _ (Members.mem_of_find? hfind)

theorem HoldsObjects.mergeProperties {children inherited : Members} (h : HoldsObjects children)
    (h' : HoldsObjects inherited) : HoldsObjects (mergeProperties children inherited) := by
  induction inherited generalizing children with
  | nil => exact h
  | cons property rest ih =>
    obtain ⟨hproperty, hrest⟩ : (∃ child, property.2 = .object child) ∧ HoldsObjects rest :=
      List.forall_mem_cons.mp h'
    rw [mergeProperties_cons]
    refine ih (fun entry hentry => ?_) hrest
    rcases mem_mergeProperty hentry with hold | rfl | ⟨mine, theirs, -, -, rfl⟩
    · exact h entry hold
    · exact hproperty
    · exact ⟨_, rfl⟩

theorem rel_mergedSchema_assoc {name : String} (hown : Value.Unique (.object own))
    (hobjects : HoldsObjects own) (hobjects' : HoldsObjects middle)
    (hobjects'' : HoldsObjects last) :
    Option.Rel Reordered
      (mergedSchema (mergedSchema (Members.find? name own) (Members.find? name middle))
        (Members.find? name last))
      (mergedSchema (Members.find? name own)
        (mergedSchema (Members.find? name middle) (Members.find? name last))) :=
  rel_combine_assoc (fun _ => rfl) mergedSchema_none (fun _ _ => rfl) (fun _ => hobjects.find?)
    (fun _ => hobjects'.find?) (fun _ => hobjects''.find?)
    fun _ _ _ hmine _ _ => fill_assoc (hown.find? hmine).keys

theorem mergeProperties_assoc (hown : Value.Unique (.object own))
    (hmiddle : Value.Unique (.object middle)) (hlast : Value.Unique (.object last))
    (hobjects : HoldsObjects own) (hobjects' : HoldsObjects middle)
    (hobjects'' : HoldsObjects last) :
    Reordered (.object (mergeProperties (mergeProperties own middle) last))
      (.object (mergeProperties own (mergeProperties middle last))) := by
  have hinner : Value.Unique (.object (mergeProperties middle last)) :=
    unique_mergeProperties hmiddle hlast
  refine .of_find? (unique_mergeProperties (unique_mergeProperties hown hmiddle) hlast).keys
    (unique_mergeProperties hown hinner).keys fun name => ?_
  rw [find?_mergeProperties hlast.keys, find?_mergeProperties hmiddle.keys,
    find?_mergeProperties hinner.keys, find?_mergeProperties hlast.keys]
  exact rel_mergedSchema_assoc hown hobjects hobjects' hobjects''

/-! ## Inheriting is associative -/

/-- A node of a schema tree: objects hold each key once, and what stands under `properties` is an
object of objects. -/
structure SchemaTree (node : Members) : Prop where
  unique : Value.Unique (.object node)
  properties : ∀ v, Members.find? "properties" node = some v →
    ∃ children, v = .object children ∧ HoldsObjects children

theorem SchemaTree.holdsObjects {node children : Members} (h : SchemaTree node)
    (hfind : Members.find? "properties" node = some (.object children)) :
    HoldsObjects children := by
  obtain ⟨_, heq, hobjects⟩ := h.properties _ hfind
  cases heq
  exact hobjects

theorem SchemaTree.isObject {node : Members} (h : SchemaTree node) (v : Value)
    (hfind : Members.find? "properties" node = some v) : ∃ children, v = .object children := by
  obtain ⟨children, rfl, -⟩ := h.properties v hfind
  exact ⟨children, rfl⟩

theorem SchemaTree.extend {node parent : Members} (h : SchemaTree node) (h' : SchemaTree parent) :
    SchemaTree (Schemata.extend node parent) where
  unique := unique_extend h.unique h'.unique
  properties := by
    intro v hfind
    rw [find?_extend h'.unique.keys, if_pos rfl] at hfind
    cases hmine : Members.find? "properties" node with
    | none =>
      rw [hmine] at hfind
      exact h'.properties v hfind
    | some mine =>
      obtain ⟨own, rfl⟩ := h.isObject mine hmine
      cases htheirs : Members.find? "properties" parent with
      | none =>
        rw [hmine, htheirs, mergedProperties_none] at hfind
        exact h.properties v (hmine.trans hfind)
      | some theirs =>
        obtain ⟨inherited, rfl⟩ := h'.isObject theirs htheirs
        rw [hmine, htheirs] at hfind
        exact ⟨_, (Option.some.inj hfind).symm,
          (h.holdsObjects hmine).mergeProperties (h'.holdsObjects htheirs)⟩

/-- What the parent of a parent adds, it adds to the node as well. -/
theorem extend_extend {node parent grandparent : Members} (hnode : SchemaTree node)
    (hparent : SchemaTree parent) (hgrandparent : SchemaTree grandparent) :
    Reordered (.object (extend (extend node parent) grandparent))
      (.object (extend node (extend parent grandparent))) := by
  have hinner : SchemaTree (extend parent grandparent) := hparent.extend hgrandparent
  refine .of_find? ((hnode.extend hparent).extend hgrandparent).unique.keys
    (hnode.extend hinner).unique.keys fun key => ?_
  rw [find?_extend hgrandparent.unique.keys, find?_extend hparent.unique.keys,
    find?_extend hinner.unique.keys, find?_extend hgrandparent.unique.keys]
  by_cases hkey : key = "properties"
  · simp only [hkey, if_true]
    refine rel_combine_assoc (fun _ => rfl) mergedProperties_none (fun _ _ => rfl) hnode.isObject
      hparent.isObject hgrandparent.isObject ?_
    intro own middle last hown hmiddle hlast
    exact mergeProperties_assoc (hnode.unique.find? hown) (hparent.unique.find? hmiddle)
      (hgrandparent.unique.find? hlast) (hnode.holdsObjects hown) (hparent.holdsObjects hmiddle)
      (hgrandparent.holdsObjects hlast)
  · simp only [if_neg hkey, Option.or_assoc]
    exact Reordered.rel_refl _

/-! ## Chains -/

/-- The node as it inherits from the first parent, which inherits from the second, and so on. -/
def chained (node : Members) : List Members → Members
  | [] => node
  | parent :: rest => extend node (chained parent rest)

theorem SchemaTree.chained {node : Members} {parents : List Members} (h : SchemaTree node)
    (h' : ∀ parent ∈ parents, SchemaTree parent) : SchemaTree (chained node parents) := by
  induction parents generalizing node with
  | nil => exact h
  | cons parent rest ih =>
    rw [List.forall_mem_cons] at h'
    exact h.extend (ih h'.1 h'.2)

/-- The first parent of a chain may be merged ahead of the others. -/
theorem chained_extend {node parent : Members} {rest : List Members} (hnode : SchemaTree node)
    (hparent : SchemaTree parent) (hrest : ∀ other ∈ rest, SchemaTree other) :
    Reordered (.object (chained (extend node parent) rest))
      (.object (chained node (parent :: rest))) := by
  cases rest with
  | nil => exact .refl _
  | cons next rest =>
    rw [List.forall_mem_cons] at hrest
    exact extend_extend hnode hparent (hrest.1.chained hrest.2)

theorem foldl_extend {node : Members} {parents : List Members} (hnode : SchemaTree node)
    (hparents : ∀ parent ∈ parents, SchemaTree parent) :
    Reordered (.object (parents.foldl extend node)) (.object (chained node parents)) := by
  -- Each merge into the node lengthens the chain that the node begins.
  induction parents generalizing node with
  | nil => exact .refl _
  | cons parent rest ih =>
    rw [List.forall_mem_cons] at hparents
    exact (ih (hnode.extend hparents.1) hparents.2).trans
      (chained_extend hnode hparents.1 hparents.2)

/-- `extend` is associative on schema trees, up to the order of keys; so a list of parents and the
chain of the same parents fill in the same declarations. -/
theorem extend_is_associative :
    (∀ node parent grandparent : Members, SchemaTree node → SchemaTree parent →
      SchemaTree grandparent →
        Reordered (.object (extend (extend node parent) grandparent))
          (.object (extend node (extend parent grandparent)))) ∧
      ∀ (node : Members) (parents : List Members), SchemaTree node →
        (∀ parent ∈ parents, SchemaTree parent) →
          Reordered (.object (parents.foldl extend node)) (.object (chained node parents)) :=
  ⟨fun _ _ _ hnode hparent hgrandparent => extend_extend hnode hparent hgrandparent,
    fun _ _ hnode hparents => foldl_extend hnode hparents⟩

theorem SchemaTree.of_children {node children : Members}
    (hmerged : (Value.object node).mergeDuplicates = .object node)
    (hfind : Members.find? "properties" node = some (.object children))
    (hobjects : HoldsObjects children) : SchemaTree node where
  unique := hmerged ▸ Value.unique_mergeDuplicates (.object node)
  properties := by
    intro v hv
    cases hfind.symm.trans hv
    exact ⟨children, rfl, hobjects⟩

def daughter : Members :=
  [("properties", .object [("x", .object [("required", .bool true)])])]

def mother : Members :=
  [("properties", .object [("x", .object [("type", .string "string")]), ("y", .object [])]),
    ("type", .string "object"), ("id", .string "mother")]

def grandmother : Members :=
  [("properties", .object [("x", .object [("type", .string "number"), ("enum", .array [])])]),
    ("description", .string "old"), ("id", .string "grandmother")]

/-- The two results are not the same: their keys stand in different orders. -/
theorem daughter_inherits_alike :
    SchemaTree daughter ∧ SchemaTree mother ∧ SchemaTree grandmother ∧
      Reordered (.object (extend (extend daughter mother) grandmother))
        (.object (extend daughter (extend mother grandmother))) ∧
      Reordered (.object ([mother, grandmother].foldl extend daughter))
        (.object (chained daughter [mother, grandmother])) ∧
      extend (extend daughter mother) grandmother ≠ extend daughter (extend mother grandmother) := by
  have hdaughter : SchemaTree daughter := .of_children (by decide) rfl (by simp [HoldsObjects])
  have hmother : SchemaTree mother := .of_children (by decide) rfl (by simp [HoldsObjects])
  have hgrandmother : SchemaTree grandmother :=
    .of_children (by decide) rfl (by simp [HoldsObjects])
  obtain ⟨htwo, hlist⟩ := extend_is_associative
  exact ⟨hdaughter, hmother, hgrandmother, htwo _ _ _ hdaughter hmother hgrandmother,
    hlist _ _ hdaughter (by simp [hmother, hgrandmother]), by decide⟩

end Inheritance
end Schemata
