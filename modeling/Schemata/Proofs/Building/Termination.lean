import Schemata.Proofs.Building.Completion

/-!
# Builds that end

A tree grows while it is walked, since the trees of parents are merged into its nodes.  What is
merged has no references, so nothing grows again below it: a node is reached after the nodes of
the document that lead to it and of one inherited tree.
-/

namespace Schemata

open Json (Members Value)

namespace Node

/-! ## Heights -/

/-- Every way down from the node is shorter than the given number. -/
def LowerThan : Nat → Members → Prop
  | 0, _ => False
  | height + 1, node => ∀ child, Child node child → LowerThan height child

/-- Every way down leads in fewer steps than `own` to a closed tree lower than `inherited`, or to
the end. -/
def Grown (inherited : Nat) : Nat → Members → Prop
  | 0, _ => False
  | own + 1, node => ∀ child, Child node child →
      (Closed child ∧ LowerThan inherited child) ∨ Grown inherited own child

variable {node parent : Members} {height own inherited : Nat}

theorem LowerThan.succ (h : LowerThan height node) : LowerThan (height + 1) node := by
  induction height generalizing node with
  | zero => exact h.elim
  | succ height ih => exact fun child hchild => ih (h child hchild)

theorem lowerThan_of_nesting (h : Value.nesting (.object node) ≤ height) :
    LowerThan height node := by
  induction height generalizing node with
  | zero => simp [Value.nesting] at h
  | succ height ih =>
    intro child hchild
    have hlt := hchild.nesting_lt
    exact ih (by omega)

theorem LowerThan.grown (h : LowerThan own node) : Grown inherited own node := by
  induction own generalizing node with
  | zero => exact h.elim
  | succ own ih => exact fun child hchild => Or.inr (ih (h child hchild))

theorem LowerThan.fill (hnode : LowerThan (height + 1) node)
    (hparent : LowerThan (height + 1) parent) :
    LowerThan (height + 1) (Inheritance.fill node parent) := by
  intro child hchild
  exact hchild.of_fill.elim (hnode child) (hparent child)

theorem Closed.fill (hnode : Closed node) (hparent : Closed parent) :
    Closed (Inheritance.fill node parent) := by
  rw [closed_iff] at hnode hparent ⊢
  refine ⟨?_, fun child hchild => hchild.of_fill.elim (hnode.2 child) (hparent.2 child)⟩
  rw [Inheritance.find?_fill, hnode.1, hparent.1]
  rfl

theorem Grown.fill (hnode : Grown inherited own node) (hclosed : Closed parent)
    (hparent : LowerThan inherited parent) :
    Grown inherited own (Inheritance.fill node parent) := by
  cases own with
  | zero => exact hnode
  | succ own =>
    cases inherited with
    | zero => exact hparent.elim
    | succ inherited =>
      intro child hchild
      rcases hchild.of_fill with hmine | htheirs
      · exact hnode child hmine
      · exact Or.inl ⟨hclosed.below htheirs, (hparent child htheirs).succ⟩

/-- Inheriting from a closed tree grows a node only by that tree. -/
theorem Grown.extend (hnode : Grown inherited (own + 1) node)
    (hu : Value.Unique (.object parent)) (hclosed : Closed parent)
    (hparent : LowerThan inherited parent) :
    Grown inherited (own + 1) (extend node parent) := by
  cases inherited with
  | zero => exact hparent.elim
  | succ inherited =>
    intro child hchild
    rcases hchild.cases_extend hu with htheirs | hmine | ⟨mine, filling, hmine, htheirs, rfl⟩
    · exact Or.inl ⟨hclosed.below htheirs, (hparent child htheirs).succ⟩
    · exact hnode child hmine
    · have hfilling : LowerThan (inherited + 1) filling := (hparent filling htheirs).succ
      rcases hnode mine hmine with ⟨hmineClosed, hmineLow⟩ | hgrown
      · exact Or.inl ⟨hmineClosed.fill (hclosed.below htheirs), hmineLow.fill hfilling⟩
      · exact Or.inr (hgrown.fill (hclosed.below htheirs) hfilling)

theorem grown_congr {other : Members}
    (hprops : Members.find? "properties" other = Members.find? "properties" node)
    (hitems : Members.find? "items" other = Members.find? "items" node) :
    Grown inherited (own + 1) other ↔ Grown inherited (own + 1) node := by
  unfold Grown
  simp only [child_congr hprops hitems]

end Node
open Build (Ends Reads)

/-! ## Computations that end -/

/-- Started in `s`, the computation ends there, and answers as required if it answers. -/
def Build.Finishes {σ α : Type} (s : σ) (P : α → Prop) (b : Build σ α) : Prop :=
  ∃ result, Ends b s result s ∧ ∀ a, result = .ok a → P a

theorem Build.finishes_iff_completes {σ α : Type} {s : σ} {P : α → Prop} {b : Build σ α} :
    Finishes s P b ↔ Completes (fun u => u = s) P b := by
  constructor
  · rintro ⟨result, hends, hok⟩ u rfl
    exact ⟨result, u, hends, rfl, hok⟩
  · intro h
    obtain ⟨result, t, hends, rfl, hok⟩ := h s rfl
    exact ⟨result, hends, hok⟩

namespace Build.Finishes

variable {σ α β : Type} {s : σ} {P : α → Prop} {Q : β → Prop}

theorem pure {a : α} (h : P a) : Finishes s P (Pure.pure a) :=
  ⟨.ok a, ends_pure.mpr ⟨rfl, rfl⟩, by rintro b ⟨⟩; exact h⟩

theorem throw {e : SchemaError} : Finishes s P (MonadExcept.throw e) :=
  ⟨.error e, ends_throw.mpr ⟨rfl, rfl⟩, by simp⟩

theorem ofExcept {r : Except SchemaError α} (h : ∀ a, r = .ok a → P a) :
    Finishes s P (Build.ofExcept r) :=
  ⟨r, ends_ofExcept.mpr ⟨rfl, rfl⟩, h⟩

theorem bind {b : Build σ α} {f : α → Build σ β} (hb : Finishes s P b)
    (hf : ∀ a, P a → Finishes s Q (f a)) : Finishes s Q (b >>= f) := by
  obtain ⟨result, hends, hok⟩ := hb
  cases result with
  | ok a =>
    obtain ⟨final, hfinal, hQ⟩ := hf a (hok a rfl)
    exact ⟨final, ends_bind.mpr (Or.inl ⟨a, s, hends, hfinal⟩), hQ⟩
  | error e => exact ⟨.error e, ends_bind.mpr (Or.inr ⟨e, hends, rfl⟩), by simp⟩

end Build.Finishes

namespace Building

open Build (Finishes)

variable {σ : Type} {s : σ} {parent : String → Build σ Members} {location : Pointer}
  {node : Members}

/-- A node is built if its parents end and its children are built. -/
theorem finishes_step {P : Members → Prop} {levels : Nat} (hu : Value.Unique (.object node))
    (hparent : ∀ reference ∈ Node.ownReferences node, Finishes s P (parent reference))
    (hunique : ∀ members, P members → Value.Unique (.object members))
    (hbuild : ∀ inherited : List Members, (∀ members ∈ inherited, P members) →
      ∀ child, Node.Child (assemble node inherited) child → ∀ place,
        Finishes s (fun built => Value.Unique (.object built))
          (buildNode parent levels place child)) :
    Finishes s (fun built => Value.Unique (.object built))
      (buildNode parent (levels + 1) location node) := by
  simp only [Build.finishes_iff_completes] at hparent hbuild ⊢
  refine (completes_step (fun _ => id) hu hparent hunique hbuild).imp ?_
  rintro built ⟨inherited, -, hwalked⟩
  exact hwalked.unique

/-- The tree that is merged grows only by what it inherits. -/
theorem grown_assemble {own height : Nat} {inherited : List Members}
    (hu : Value.Unique (.object node)) (hgrown : Node.Grown height (own + 1) node)
    (hinherited : ∀ members ∈ inherited, Resolved members ∧ Node.LowerThan height members) :
    Node.Grown height (own + 1) (assemble node inherited) := by
  have hfold : ∀ start, Node.Grown height (own + 1) start →
      Node.Grown height (own + 1) (inherited.foldl extend start) := by
    induction inherited with
    | nil => exact fun _ => id
    | cons first rest ih =>
      rw [List.forall_mem_cons] at hinherited
      intro start hstart
      exact ih hinherited.2 _
        (hstart.extend hinherited.1.1.unique hinherited.1.1.closed hinherited.1.2)
  have hbare : Node.Grown height (own + 1) (bare node) :=
    (Node.grown_congr (find?_bare hu (by decide) (by decide))
      (find?_bare hu (by decide) (by decide))).mpr hgrown
  exact (Node.grown_congr (find?_assemble (by decide))
    (find?_assemble (by decide))).mpr (hfold _ hbare)

/-- A closed tree needs no more levels than it has. -/
theorem finishes_of_closed {height levels : Nat} (hu : Value.Unique (.object node))
    (hclosed : Node.Closed node) (hlow : Node.LowerThan height node) (hlevels : height ≤ levels) :
    Finishes s (fun built => Value.Unique (.object built))
      (buildNode parent levels location node) := by
  induction height generalizing levels location node with
  | zero => exact hlow.elim
  | succ height ih =>
    obtain ⟨more, rfl⟩ : ∃ more, levels = more + 1 := ⟨levels - 1, by omega⟩
    have hnone : Node.ownReferences node = [] := by
      rw [Node.ownReferences, (Node.closed_iff.mp hclosed).1]
    have hparent : ∀ reference ∈ Node.ownReferences node,
        Finishes s (fun _ => False) (parent reference) := by
      simp [hnone]
    refine finishes_step hu hparent (fun _ => False.elim) ?_
    intro inherited hall child hchild place
    obtain rfl : inherited = [] := List.eq_nil_iff_forall_not_mem.mpr hall
    have hfind : ∀ key, key ≠ "type" → key ≠ "extends" →
        Members.find? key (assemble node []) = Members.find? key node :=
      fun key htype hextends => (find?_assemble htype).trans (find?_bare hu htype hextends)
    have hown : Node.Child node child :=
      (Node.child_congr (hfind "properties" (by decide) (by decide))
        (hfind "items" (by decide) (by decide))).mp hchild
    exact ih (hown.unique hu) (hclosed.below hown) (hlow child hown) (by omega)

/-- A tree needs no more levels than it has itself and the trees have that it inherits. -/
theorem finishes_of_grown {own height levels : Nat} (hu : Value.Unique (.object node))
    (hgrown : Node.Grown height own node) (hlevels : own + height ≤ levels)
    (hparent : ∀ reference, Node.Mentions node reference →
      Finishes s (fun members => Resolved members ∧ Node.LowerThan height members)
        (parent reference)) :
    Finishes s (fun built => Value.Unique (.object built))
      (buildNode parent levels location node) := by
  induction own generalizing levels location node with
  | zero => exact hgrown.elim
  | succ own ih =>
    obtain ⟨more, rfl⟩ : ∃ more, levels = more + 1 := ⟨levels - 1, by omega⟩
    refine finishes_step hu (fun reference hown => hparent reference (Node.mentions_of_own hown))
      (fun members hmembers => hmembers.1.unique) ?_
    intro inherited hall child hchild place
    have hprepared := prepared_assemble hu fun members hmembers => (hall members hmembers).1
    have hunique := hchild.unique hprepared.unique
    rcases grown_assemble hu hgrown hall child hchild with ⟨hclosed, hlow⟩ | hbelow
    · exact finishes_of_closed hunique hclosed hlow (by omega)
    · exact ih hunique hbelow (by omega) fun reference hmentions =>
        hparent reference (hprepared.mentions child hchild reference hmentions)

end Building
end Schemata
