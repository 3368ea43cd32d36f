import Schemata.Proofs.Building.Termination

/-!
# Descending through inherited references

A parent may answer a tree that has references itself.  They are followed when the walk comes to
them, in the middle of the heir; so the levels that a node takes depend on what it refers to.  Each
reference is given a weight, and a tree is bounded if at each of its nodes as many levels are left
as the references of the node weigh.  The tree of a parent may use up what its reference weighs:
then the merged tree is bounded like the node, and the walk comes to an end.
-/

namespace Schemata

open Json (Members Value)

namespace Node

open Inheritance

variable {weight : String → Nat} {node parent child : Members} {reference : String}
  {height more : Nat}

/-! ## References of merged nodes -/

theorem mem_ownReferences_fill (h : reference ∈ ownReferences (fill node parent)) :
    reference ∈ ownReferences node ∨ reference ∈ ownReferences parent := by
  cases hfind : Members.find? "extends" node with
  | none =>
    refine Or.inr ?_
    rwa [ownReferences_congr] at h
    rw [find?_fill, hfind, Option.none_or]
  | some v =>
    refine Or.inl ?_
    rwa [ownReferences_congr] at h
    rw [find?_fill, hfind, Option.some_or]

theorem mem_ownReferences_extend (hu : Value.Unique (.object parent))
    (h : reference ∈ ownReferences (extend node parent)) :
    reference ∈ ownReferences node ∨ reference ∈ ownReferences parent := by
  refine mem_ownReferences_fill ?_
  rwa [ownReferences_congr] at h
  rw [find?_fill, find?_extend hu.keys, if_neg (by decide)]

/-- A filled node mentions nothing but what it and the parent mention. -/
theorem Mentions.of_fill (h : Mentions (Inheritance.fill node parent) reference) :
    Mentions node reference ∨ Mentions parent reference := by
  rcases mentions_iff.mp h with hown | ⟨child, hchild, hbelow⟩
  · exact (mem_ownReferences_fill hown).imp mentions_of_own mentions_of_own
  · exact hchild.of_fill.imp hbelow.of_child hbelow.of_child

/-- What holds of the children of two nodes, and is kept by filling one of them from the other,
holds of the children of the merged node. -/
theorem forall_child_extend {Q : Members → Prop}
    (hfill : ∀ mine filling, Q mine → Q filling → Q (fill mine filling))
    (hu : Value.Unique (.object parent)) (hnode : ∀ child, Child node child → Q child)
    (hparent : ∀ child, Child parent child → Q child) (hchild : Child (extend node parent) child) :
    Q child := by
  rcases hchild.cases_extend hu with htheirs | hmine | ⟨mine, filling, hmine, htheirs, rfl⟩
  · exact hparent child htheirs
  · exact hnode child hmine
  · exact hfill mine filling (hnode mine hmine) (hparent filling htheirs)

section Foldl

variable {inherited : List Members}

theorem forall_child_foldl_extend {Q : Members → Prop}
    (hfill : ∀ mine filling, Q mine → Q filling → Q (fill mine filling))
    (hinherited : ∀ members ∈ inherited, Value.Unique (.object members) ∧
      ∀ child, Child members child → Q child) (hnode : ∀ child, Child node child → Q child) :
    ∀ child, Child (inherited.foldl extend node) child → Q child := by
  apply List.foldlRecOn (motive := fun merged => ∀ child, Child merged child → Q child) _ _ hnode
  intro merged hmerged members hmem child hchild
  obtain ⟨hunique, hchildren⟩ := hinherited members hmem
  exact forall_child_extend hfill hunique hmerged hchildren hchild

theorem mem_ownReferences_foldl_extend
    (hinherited : ∀ members ∈ inherited, Value.Unique (.object members))
    (h : reference ∈ ownReferences (inherited.foldl extend node)) :
    reference ∈ ownReferences node ∨ ∃ members ∈ inherited, reference ∈ ownReferences members := by
  induction inherited generalizing node with
  | nil => exact Or.inl h
  | cons first rest ih =>
    rw [List.forall_mem_cons] at hinherited
    rcases ih hinherited.2 h with hmerged | ⟨members, hmem, hown⟩
    · rcases mem_ownReferences_extend hinherited.1 hmerged with hmine | htheirs
      · exact Or.inl hmine
      · exact Or.inr ⟨first, List.mem_cons_self, htheirs⟩
    · exact Or.inr ⟨members, List.mem_cons_of_mem _ hmem, hown⟩

end Foldl

/-! ## Bounded trees -/

/-- At every node of the tree as many levels are left as the references of the node weigh. -/
def Bounded (weight : String → Nat) : Nat → Members → Prop
  | 0, _ => False
  | height + 1, node => (∀ reference ∈ ownReferences node, weight reference ≤ height + 1) ∧
      ∀ child, Child node child → Bounded weight height child

theorem Bounded.mono (h : Bounded weight height node) (hle : height ≤ more) :
    Bounded weight more node := by
  induction height generalizing more node with
  | zero => exact h.elim
  | succ height ih =>
    obtain ⟨rest, rfl⟩ : ∃ rest, more = rest + 1 := ⟨more - 1, by omega⟩
    refine ⟨fun reference hown => ?_, fun child hchild => ih (h.2 child hchild) (by omega)⟩
    exact Nat.le_trans (h.1 reference hown) hle

/-- A tree is bounded by its height and the weight of its heaviest reference. -/
theorem bounded_of_lowerThan {heaviest : Nat} (hlow : LowerThan height node)
    (hweight : ∀ reference, Mentions node reference → weight reference ≤ heaviest) :
    Bounded weight (heaviest + height) node := by
  induction height generalizing node with
  | zero => exact hlow.elim
  | succ height ih =>
    change Bounded weight (heaviest + height + 1) node
    refine ⟨fun reference hown => ?_, fun child hchild => ?_⟩
    · have hle := hweight reference (mentions_of_own hown)
      omega
    · exact ih (hlow child hchild) fun reference hmentions =>
        hweight reference (hmentions.of_child hchild)

theorem Bounded.fill (hnode : Bounded weight height node) (hparent : Bounded weight height parent) :
    Bounded weight height (Inheritance.fill node parent) := by
  cases height with
  | zero => exact hnode
  | succ height =>
    refine ⟨fun reference hown => ?_, fun child hchild => ?_⟩
    · exact (mem_ownReferences_fill hown).elim (hnode.1 reference) (hparent.1 reference)
    · exact hchild.of_fill.elim (hnode.2 child) (hparent.2 child)

/-- A tree that can be merged where so many levels are left, and whose references are all of one
kind. -/
structure Tame (weight : String → Nat) (Kind : String → Prop) (height : Nat) (node : Members) :
    Prop where
  unique : Value.Unique (.object node)
  bounded : Bounded weight height node
  mentions : ∀ reference, Mentions node reference → Kind reference

theorem Tame.mono {Kind Kind' : String → Prop} (h : Tame weight Kind height node)
    (hle : height ≤ more) (hkind : ∀ reference, Kind reference → Kind' reference) :
    Tame weight Kind' more node :=
  ⟨h.unique, h.bounded.mono hle, fun reference hmentions =>
    hkind reference (h.mentions reference hmentions)⟩

theorem Tame.below {Kind : String → Prop} (h : Tame weight Kind (height + 1) node)
    (hchild : Child node child) : Tame weight Kind height child where
  unique := hchild.unique h.unique
  bounded := h.bounded.2 child hchild
  mentions := fun reference hmentions => h.mentions reference (hmentions.of_child hchild)

theorem Tame.fill {Kind : String → Prop} (hnode : Tame weight Kind height node)
    (hparent : Tame weight Kind height parent) :
    Tame weight Kind height (Inheritance.fill node parent) where
  unique := Inheritance.unique_fill hnode.unique hparent.unique
  bounded := hnode.bounded.fill hparent.bounded
  mentions := fun reference hmentions =>
    hmentions.of_fill.elim (hnode.mentions reference) (hparent.mentions reference)

end Node

namespace Building

open Build (Completes)
open Node (Tame)

variable {σ : Type} {I : σ → Prop} {parent : String → Build σ Members} {location : Pointer}
  {node : Members} {inherited : List Members}

theorem forall_child_assemble {Q : Members → Prop}
    (hfill : ∀ mine filling, Q mine → Q filling → Q (Inheritance.fill mine filling))
    (hu : Value.Unique (.object node)) (hnode : ∀ child, Node.Child node child → Q child)
    (hinherited : ∀ members ∈ inherited, Value.Unique (.object members) ∧
      ∀ child, Node.Child members child → Q child) {child : Members}
    (hchild : Node.Child (assemble node inherited) child) : Q child := by
  have hbare : ∀ child, Node.Child (bare node) child → Q child := fun child hchild =>
    hnode child ((Node.child_congr (find?_bare hu (by decide) (by decide))
      (find?_bare hu (by decide) (by decide))).mp hchild)
  exact Node.forall_child_foldl_extend hfill hinherited hbare child
    ((Node.child_congr (find?_assemble (by decide)) (find?_assemble (by decide))).mp hchild)

/-- Whatever a merged node refers to, one of its parents left to it. -/
theorem exists_of_ownReferences_assemble (hu : Value.Unique (.object node))
    (hinherited : ∀ members ∈ inherited, Value.Unique (.object members)) {reference : String}
    (h : reference ∈ Node.ownReferences (assemble node inherited)) :
    ∃ members ∈ inherited, reference ∈ Node.ownReferences members := by
  have hbare : Node.ownReferences (bare node) = [] := by
    rw [bare, Node.ownReferences, Members.find?_swapErase (unique_dropNullType hu).keys, if_pos rfl]
  rw [Node.ownReferences_congr (find?_assemble (by decide))] at h
  refine (Node.mem_ownReferences_foldl_extend hinherited h).resolve_left ?_
  rw [hbare]
  exact List.not_mem_nil

/-- A node is built within the levels that bound it.  What the built tree still refers to was left
to it by its parents. -/
theorem completes_of_bounded {weight : String → Nat} {Kind Left : String → Prop}
    (hleft : ∀ reference, Left reference → Kind reference)
    (hparent : ∀ reference, Kind reference →
      Completes I (Tame weight Left (weight reference)) (parent reference))
    {height levels : Nat} (hnode : Tame weight Kind height node) (hlevels : height ≤ levels) :
    Completes I (fun built => Value.Unique (.object built) ∧
        ∀ reference, Node.Mentions built reference → Left reference)
      (buildNode parent levels location node) := by
  -- on the levels left at the node: a parent is merged with as many as its reference weighs, so
  -- the children of the merged node have one level less, whoever they came from
  induction height generalizing levels location node with
  | zero => exact hnode.bounded.elim
  | succ height ih =>
    obtain ⟨more, rfl⟩ : ∃ more, levels = more + 1 := ⟨levels - 1, by omega⟩
    have hparents : ∀ reference ∈ Node.ownReferences node,
        Completes I (Tame weight Left (height + 1)) (parent reference) := by
      intro reference hown
      apply (hparent reference (hnode.mentions reference (Node.mentions_of_own hown))).imp
      intro members hmembers
      exact hmembers.mono (hnode.bounded.1 reference hown) fun _ => id
    have hbuild : ∀ inherited : List Members,
        (∀ members ∈ inherited, Tame weight Left (height + 1) members) →
          ∀ child, Node.Child (assemble node inherited) child → ∀ place,
            Completes I (fun built => Value.Unique (.object built) ∧
              ∀ reference, Node.Mentions built reference → Left reference)
              (buildNode parent more place child) := by
      intro inherited hall child hchild place
      have hinherited : ∀ members ∈ inherited, Value.Unique (.object members) ∧
          ∀ below, Node.Child members below → Tame weight Kind height below := by
        intro members hmembers
        refine ⟨(hall members hmembers).unique, fun below hbelow => ?_⟩
        exact ((hall members hmembers).below hbelow).mono (Nat.le_refl height) hleft
      have htame : Tame weight Kind height child :=
        forall_child_assemble (fun _ _ => Tame.fill) hnode.unique (fun _ => hnode.below)
          hinherited hchild
      exact ih htame (by omega)
    refine (completes_step (fun _ hchild => hchild.1) hnode.unique hparents
      (fun _ hmembers => hmembers.unique) hbuild).imp ?_
    rintro built ⟨inherited, hall, hwalked⟩
    refine ⟨hwalked.unique, fun reference hmentions => ?_⟩
    rcases Node.mentions_iff.mp hmentions with hown | ⟨child, hchild, hbelow⟩
    · rw [Node.ownReferences_congr hwalked.references] at hown
      obtain ⟨members, hmembers, hown⟩ := exists_of_ownReferences_assemble hnode.unique
        (fun members hmembers => (hall members hmembers).unique) hown
      exact (hall members hmembers).mentions reference (Node.mentions_of_own hown)
    · exact (hwalked.children child hchild).2 reference hbelow

end Building
end Schemata
