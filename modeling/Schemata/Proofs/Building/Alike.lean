import Schemata.Proofs.Building.Outcome

/-!
# Computations that end alike

`Build.Alike` compares two computations that only read: both answer, with related answers, or both
fail, or both run out of levels.  Unlike a `Simulation` it may compare the builds of two different
trees, and it does not compare errors.
-/

namespace Schemata
namespace Build

variable {σ α β α' β' : Type} {s : σ}

/-- Both computations answer, both fail, or neither ends; related answers are related. -/
inductive Alike (s : σ) (R : α → β → Prop) (x : Build σ α) (y : Build σ β) : Prop
  | answers {a : α} {b : β} : Ends x s (.ok a) s → Ends y s (.ok b) s → R a b → Alike s R x y
  | fails {e e' : SchemaError} : Ends x s (.error e) s → Ends y s (.error e') s → Alike s R x y
  | unfinished : (∀ result t, ¬ Ends x s result t) → (∀ result t, ¬ Ends y s result t) →
      Alike s R x y

variable {R : α → β → Prop} {Q : α' → β' → Prop} {x : Build σ α} {y : Build σ β}
  {f : α → Build σ α'} {g : β → Build σ β'} {P : α → Prop}

theorem Alike.pure {a : α} {b : β} (h : R a b) : Alike s R (pure a) (pure b) :=
  .answers (ends_pure.mpr ⟨rfl, rfl⟩) (ends_pure.mpr ⟨rfl, rfl⟩) h

theorem Alike.throw {e e' : SchemaError} : Alike s R (throw e) (throw e') :=
  .fails (ends_throw.mpr ⟨rfl, rfl⟩) (ends_throw.mpr ⟨rfl, rfl⟩)

theorem Alike.ofExcept {r r' : Except SchemaError α} (h : ∀ a, r = .ok a ↔ r' = .ok a) :
    Alike s Eq (ofExcept r) (ofExcept r') := by
  cases r with
  | ok a =>
    rw [(h a).mp rfl]
    exact .pure rfl
  | error e =>
    cases r' with
    | ok a => simpa using (h a).mpr rfl
    | error e' => exact .throw

theorem Alike.bind (h : Alike s R x y) (hrest : ∀ a b, R a b → Alike s Q (f a) (g b)) :
    Alike s Q (x >>= f) (y >>= g) := by
  cases h with
  | answers hx hy hR =>
    cases hrest _ _ hR with
    | answers hf hg hQ =>
      exact .answers ((ends_bind_of_ok hx).mpr hf) ((ends_bind_of_ok hy).mpr hg) hQ
    | fails hf hg => exact .fails ((ends_bind_of_ok hx).mpr hf) ((ends_bind_of_ok hy).mpr hg)
    | unfinished hf hg =>
      exact .unfinished (fun result t h => hf result t ((ends_bind_of_ok hx).mp h))
        fun result t h => hg result t ((ends_bind_of_ok hy).mp h)
  | fails hx hy => exact .fails (ends_bind_of_error hx) (ends_bind_of_error hy)
  | unfinished hx hy =>
    exact .unfinished (fun _ _ => not_ends_bind hx) fun _ _ => not_ends_bind hy

/-- A computation that only reads ends like itself. -/
theorem Reads.alike {x : Build σ α} (h : Reads s P x) :
    Alike s (fun a b => a = b ∧ Ends x s (.ok a) s ∧ P a) x x := by
  by_cases hends : ∃ result t, Ends x s result t
  · obtain ⟨result, t, hends⟩ := hends
    obtain ⟨rfl, hok⟩ := h result t hends
    cases result with
    | ok a => exact .answers hends hends ⟨rfl, hends, hok a rfl⟩
    | error e => exact .fails hends hends
  · have hnone : ∀ result t, ¬ Ends x s result t := fun result t h => hends ⟨result, t, h⟩
    exact .unfinished hnone hnone

end Build
end Schemata
