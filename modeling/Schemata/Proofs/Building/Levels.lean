import Schemata.Proofs.Build

/-!
# More levels

A build with fewer levels approximates one with more: wherever it ends, the other ends too, with the
same result and in the same state.  The order is kept by every way to put computations together, so
a build is monotone in its levels and in the parents that it asks for.
-/

namespace Schemata

open Build (Ends)
open Json (Members Value)

variable {σ α β : Type}

/-- Where the first computation ends, the second one ends in the same way. -/
def Build.Approximates (b b' : Build σ α) : Prop :=
  ∀ s result t, Ends b s result t → Ends b' s result t

namespace Build

variable {b b' : Build σ α} {f f' : α → Build σ β}

theorem Approximates.refl (b : Build σ α) : Approximates b b :=
  fun _ _ _ => id

theorem Approximates.unfinished : Approximates unfinished b :=
  fun _ _ _ h => absurd h not_ends_unfinished

theorem Approximates.bind (hb : Approximates b b') (hf : ∀ a, Approximates (f a) (f' a)) :
    Approximates (b >>= f) (b' >>= f') := by
  intro s result t h
  rcases ends_bind.mp h with ⟨a, u, ha, hrest⟩ | ⟨e, he, rfl⟩
  · exact ends_bind.mpr (Or.inl ⟨a, u, hb _ _ _ ha, hf a _ _ _ hrest⟩)
  · exact ends_bind.mpr (Or.inr ⟨e, hb _ _ _ he, rfl⟩)

theorem Approximates.map {g : α → β} (hb : Approximates b b') :
    Approximates (g <$> b) (g <$> b') := by
  rw [map_eq_pure_bind, map_eq_pure_bind]
  exact hb.bind fun a => .refl _

theorem Approximates.mapError {g : SchemaError → SchemaError} (hb : Approximates b b') :
    Approximates (mapError g b) (mapError g b') := by
  intro s result t h
  rcases ends_mapError.mp h with ⟨a, ha, rfl⟩ | ⟨e, he, rfl⟩
  · exact ends_mapError.mpr (Or.inl ⟨a, hb _ _ _ ha, rfl⟩)
  · exact ends_mapError.mpr (Or.inr ⟨e, hb _ _ _ he, rfl⟩)

/-- With whatever numbers of levels it ends, a monotone computation ends in one way. -/
theorem Ends.unique_of_monotone {c : Nat → Build σ α}
    (hmono : ∀ {i j}, i ≤ j → Approximates (c i) (c j)) {i j : Nat} {s t t' : σ}
    {result result' : Except SchemaError α} (h : Ends (c i) s result t)
    (h' : Ends (c j) s result' t') : result = result' ∧ t = t' :=
  (hmono (Nat.le_max_left i j) _ _ _ h).unique (hmono (Nat.le_max_right i j) _ _ _ h')

end Build

namespace Building

open Build (Approximates)

variable {parent parent' : String → Build σ Members} {location : Pointer} {node : Members}

section Parents

variable (hparent : ∀ reference, Approximates (parent reference) (parent' reference))

include hparent

theorem approximates_inheritAll {references : List String} :
    Approximates (inheritAll parent references node) (inheritAll parent' references node) := by
  induction references generalizing node with
  | nil => exact .refl _
  | cons reference rest ih => exact (hparent reference).bind fun _ => ih

theorem approximates_inheritParents :
    Approximates (inheritParents parent location node) (inheritParents parent' location node) := by
  unfold inheritParents
  cases Members.find? "extends" node with
  | none => exact .refl _
  | some v => exact (Approximates.refl _).bind fun _ => approximates_inheritAll hparent

theorem approximates_prepare :
    Approximates (prepare parent location node) (prepare parent' location node) :=
  (approximates_inheritParents hparent).bind fun _ => .refl _

end Parents

section Children

variable {build build' : Pointer → Members → Build σ Members}
  (hbuild : ∀ place child, Approximates (build place child) (build' place child))

include hbuild

theorem approximates_buildChildren {children : Members} :
    Approximates (buildChildren build location children)
      (buildChildren build' location children) := by
  induction children with
  | nil => exact .refl _
  | cons entry rest ih =>
    obtain ⟨name, v⟩ := entry
    cases v with
    | object child => exact (hbuild _ child).bind fun _ => ih.bind fun _ => .refl _
    | _ => exact .refl _

theorem approximates_buildTuple {tuple : List Value} {index : Nat} :
    Approximates (buildTuple build location index tuple)
      (buildTuple build' location index tuple) := by
  induction tuple generalizing index with
  | nil => exact .refl _
  | cons item rest ih =>
    cases item with
    | object child => exact (hbuild _ child).bind fun _ => ih.bind fun _ => .refl _
    | _ => exact .refl _

theorem approximates_buildProperties :
    Approximates (buildProperties build location node) (buildProperties build' location node) := by
  unfold buildProperties
  split
  · exact .refl _
  · exact (approximates_buildChildren hbuild).bind fun _ => .refl _
  · exact .refl _

theorem approximates_buildItems :
    Approximates (buildItems build location node) (buildItems build' location node) := by
  unfold buildItems
  split
  · exact .refl _
  · exact (hbuild _ _).bind fun _ => .refl _
  · exact (approximates_buildTuple hbuild).bind fun _ => .refl _
  · exact .refl _

end Children

/-- A build is monotone in its levels and in its parents. -/
theorem approximates_buildNode {levels levels' : Nat} (hlevels : levels ≤ levels')
    (hparent : ∀ reference, Approximates (parent reference) (parent' reference)) :
    Approximates (buildNode parent levels location node)
      (buildNode parent' levels' location node) := by
  induction levels generalizing levels' location node with
  | zero => exact .unfinished
  | succ levels ih =>
    obtain ⟨more, rfl⟩ : ∃ more, levels' = more + 1 := ⟨levels' - 1, by omega⟩
    have hbuild : ∀ place child, Approximates (buildNode parent levels place child)
        (buildNode parent' more place child) := fun _ _ => ih (by omega)
    exact (approximates_prepare hparent).bind fun _ =>
      (approximates_buildProperties hbuild).bind fun _ => approximates_buildItems hbuild

end Building
end Schemata
