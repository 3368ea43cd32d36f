import Schemata.Building

/-!
# How building computations end

`Build.Ends b s r t` says that a computation started in the state `s` ends with the result `r` in
the state `t`.  There is one law for each way to put computations together, so that no later
argument looks into the layers of `Build`.
-/

namespace Schemata
namespace Build

variable {σ α β : Type}

/-- Started in `s`, the computation ends with a result in the state `t`. -/
def Ends (b : Build σ α) (s : σ) (r : Except SchemaError α) (t : σ) : Prop :=
  StateT.run (ExceptT.run b) s = some (r, t)

theorem Ends.unique {b : Build σ α} {s t t' : σ} {r r' : Except SchemaError α}
    (h : Ends b s r t) (h' : Ends b s r' t') :
    r = r' ∧ t = t' := by
  have hpair : some (r, t) = some (r', t') := h.symm.trans h'
  simpa using hpair

/-- A computation whose run is known ends in that way only. -/
theorem ends_iff_of_run {b : Build σ α} {s t u : σ} {r result : Except SchemaError α}
    (h : StateT.run (ExceptT.run b) s = some (result, u)) :
    Ends b s r t ↔ r = result ∧ t = u := by
  rw [Ends, h, Option.some.injEq, Prod.mk.injEq]
  exact and_congr eq_comm eq_comm

@[simp] theorem ends_pure {a : α} {s t : σ} {r : Except SchemaError α} :
    Ends (pure a) s r t ↔ r = .ok a ∧ t = s :=
  ends_iff_of_run rfl

theorem ends_pure_ok {a b : α} {s t : σ} : Ends (pure a) s (.ok b) t ↔ b = a ∧ t = s := by
  rw [ends_pure, Except.ok.injEq]

@[simp] theorem ends_throw {e : SchemaError} {s t : σ} {r : Except SchemaError α} :
    Ends (throw e) s r t ↔ r = .error e ∧ t = s :=
  ends_iff_of_run rfl

@[simp] theorem not_ends_unfinished {s t : σ} {r : Except SchemaError α} :
    ¬ Ends unfinished s r t := by
  intro h
  have hpair : none = some (r, t) := h
  simp at hpair

theorem ends_bind {b : Build σ α} {f : α → Build σ β} {s t : σ} {r : Except SchemaError β} :
    Ends (b >>= f) s r t ↔
      (∃ a u, Ends b s (.ok a) u ∧ Ends (f a) u r t) ∨
        ∃ e, Ends b s (.error e) t ∧ r = .error e := by
  have hrun : StateT.run (ExceptT.run (b >>= f)) s =
      (StateT.run (ExceptT.run b) s).bind fun p =>
        match p with
        | (.ok a, u) => StateT.run (ExceptT.run (f a)) u
        | (.error e, u) => some (.error e, u) := by
    change (StateT.run (ExceptT.run b) s).bind _ = _
    congr 1
    funext p
    obtain ⟨result, u⟩ := p
    cases result <;> rfl
  unfold Ends
  rw [hrun]
  cases hb : StateT.run (ExceptT.run b) s with
  | none => simp
  | some p =>
    obtain ⟨result, u⟩ := p
    cases result with
    | ok a =>
      simp only [Option.bind_some, Option.some.injEq, Prod.mk.injEq, Except.ok.injEq,
        reduceCtorEq, false_and, exists_false, or_false]
      constructor
      · intro h
        exact ⟨a, u, ⟨rfl, rfl⟩, h⟩
      · rintro ⟨a', u', ⟨rfl, rfl⟩, h⟩
        exact h
    | error e =>
      simp only [Option.bind_some, Option.some.injEq, Prod.mk.injEq, reduceCtorEq, false_and,
        exists_false, false_or, Except.error.injEq]
      constructor
      · rintro ⟨rfl, rfl⟩
        exact ⟨e, ⟨rfl, rfl⟩, rfl⟩
      · rintro ⟨e', ⟨rfl, rfl⟩, rfl⟩
        exact ⟨rfl, rfl⟩

theorem ends_bind_ok {b : Build σ α} {f : α → Build σ β} {s t : σ} {a : β} :
    Ends (b >>= f) s (.ok a) t ↔ ∃ x u, Ends b s (.ok x) u ∧ Ends (f x) u (.ok a) t := by
  rw [ends_bind]
  simp

/-- After an answer the computation goes on as it says. -/
theorem ends_bind_of_ok {b : Build σ α} {f : α → Build σ β} {s t u : σ} {a : α}
    {r : Except SchemaError β} (h : Ends b s (.ok a) u) :
    Ends (b >>= f) s r t ↔ Ends (f a) u r t := by
  rw [ends_bind]
  constructor
  · rintro (⟨x, v, hx, hrest⟩ | ⟨e, he, -⟩)
    · obtain ⟨hok, rfl⟩ := hx.unique h
      exact Except.ok.inj hok ▸ hrest
    · simpa using (he.unique h).1
  · exact fun hrest => Or.inl ⟨a, u, h, hrest⟩

theorem ends_bind_of_error {b : Build σ α} {f : α → Build σ β} {s t : σ} {e : SchemaError}
    (h : Ends b s (.error e) t) : Ends (b >>= f) s (.error e) t :=
  ends_bind.mpr (Or.inr ⟨e, h, rfl⟩)

theorem not_ends_bind {b : Build σ α} {f : α → Build σ β} {s t : σ} {r : Except SchemaError β}
    (h : ∀ result u, ¬ Ends b s result u) : ¬ Ends (b >>= f) s r t := by
  rw [ends_bind]
  rintro (⟨a, u, ha, -⟩ | ⟨e, he, -⟩)
  · exact h _ _ ha
  · exact h _ _ he

theorem ends_map {f : α → β} {b : Build σ α} {s t : σ} {r : Except SchemaError β} :
    Ends (f <$> b) s r t ↔
      (∃ a, Ends b s (.ok a) t ∧ r = .ok (f a)) ∨ ∃ e, Ends b s (.error e) t ∧ r = .error e := by
  rw [map_eq_pure_bind, ends_bind]
  simp only [ends_pure]
  grind

theorem ends_map_ok {f : α → β} {b : Build σ α} {s t : σ} {r : β} :
    Ends (f <$> b) s (.ok r) t ↔ ∃ a, Ends b s (.ok a) t ∧ r = f a := by
  rw [ends_map]
  simp

theorem ends_bind_pure_ok {f : α → β} {b : Build σ α} {s t : σ} {r : β} :
    Ends (b >>= fun a => pure (f a)) s (.ok r) t ↔ ∃ a, Ends b s (.ok a) t ∧ r = f a := by
  rw [← map_eq_pure_bind, ends_map_ok]

theorem exists_ends_of_map {f : α → β} {b : Build σ α} {s t : σ} {r : Except SchemaError β}
    (h : Ends (f <$> b) s r t) : ∃ result, Ends b s result t ∧ r = result.map f := by
  rcases ends_map.mp h with ⟨a, ha, rfl⟩ | ⟨e, he, rfl⟩
  · exact ⟨.ok a, ha, rfl⟩
  · exact ⟨.error e, he, rfl⟩

@[simp] theorem ends_ofExcept {x r : Except SchemaError α} {s t : σ} :
    Ends (ofExcept x) s r t ↔ r = x ∧ t = s := by
  cases x with
  | ok a => exact ends_pure
  | error e => exact ends_throw

@[simp] theorem ends_get {s t : σ} {r : Except SchemaError σ} :
    Ends (get : Build σ σ) s r t ↔ r = .ok s ∧ t = s :=
  ends_iff_of_run rfl

@[simp] theorem ends_set {s u t : σ} {r : Except SchemaError PUnit} :
    Ends (set u : Build σ PUnit) s r t ↔ r = .ok ⟨⟩ ∧ t = u :=
  ends_iff_of_run rfl

theorem ends_mapError {f : SchemaError → SchemaError} {b : Build σ α} {s t : σ}
    {r : Except SchemaError α} :
    Ends (mapError f b) s r t ↔
      (∃ a, Ends b s (.ok a) t ∧ r = .ok a) ∨ ∃ e, Ends b s (.error e) t ∧ r = .error (f e) := by
  have hrun : StateT.run (ExceptT.run (mapError f b)) s = mapError f b s := rfl
  unfold Ends
  rw [hrun, mapError]
  cases StateT.run (ExceptT.run b) s with
  | none => simp
  | some p =>
    obtain ⟨result, u⟩ := p
    cases result <;> grind

end Build
end Schemata
