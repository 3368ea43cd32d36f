import Schemata.Proofs.Building.Simulation

/-!
# Comparisons of builds

`Simulation.outcome` looks at one build that reads a fixed state: it says which errors may come
out.  `Simulation.following` compares two builds that may start in different states: what the
left one answers, the right one answers too once it has levels enough, except for errors that are
excused.  `Simulation.succeeding` compares answers alone, but for a right build that changes its
state.
-/

namespace Schemata

open Build (Ends)

/-- The computation leaves the state as it is, and answers as required. -/
def Build.Reads {σ α : Type} (s : σ) (P : α → Prop) (b : Build σ α) : Prop :=
  ∀ result t, Ends b s result t → t = s ∧ ∀ a, result = .ok a → P a

/-- Holds of all numbers of levels from some number on. -/
def Eventually (p : Nat → Prop) : Prop :=
  ∃ enough, ∀ levels, enough ≤ levels → p levels

theorem Eventually.of_forall {p : Nat → Prop} (h : ∀ levels, p levels) : Eventually p :=
  ⟨0, fun levels _ => h levels⟩

theorem Eventually.exists {p : Nat → Prop} (h : Eventually p) : ∃ levels, p levels := by
  obtain ⟨enough, h⟩ := h
  exact ⟨enough, h enough (Nat.le_refl _)⟩

theorem Eventually.and {p q : Nat → Prop} (hp : Eventually p) (hq : Eventually q) :
    Eventually fun levels => p levels ∧ q levels := by
  obtain ⟨m, hm⟩ := hp
  obtain ⟨n, hn⟩ := hq
  exact ⟨max m n, fun levels h => ⟨hm levels (by omega), hn levels (by omega)⟩⟩

theorem Eventually.imp {p q : Nat → Prop} (hp : Eventually p)
    (h : ∀ levels, p levels → q levels) : Eventually q := by
  obtain ⟨enough, hp⟩ := hp
  exact ⟨enough, fun levels hle => h levels (hp levels hle)⟩

/-- What is known of a state, and which states may come later. -/
structure StateInvariant (σ : Type) where
  Holds : σ → Prop
  Later : σ → σ → Prop
  refl : ∀ s, Later s s
  trans : ∀ {s t u}, Later s t → Later t u → Later s u

/-- The state is and stays the given one. -/
def StateInvariant.still {σ : Type} (s : σ) : StateInvariant σ where
  Holds := fun t => t = s
  Later := fun _ _ => True
  refl := fun _ => trivial
  trans := fun _ _ => trivial

namespace Simulation

variable {σ τ : Type}

/-- One build in a fixed state: the state stays, answers are as required, and errors blame the
node or are allowed. -/
def outcome (s : σ) (Allowed : SchemaError → Prop) : Simulation σ σ Unit where
  Relates P x _ := ∀ result t, Ends x s result t → t = s ∧
    (∀ a, result = .ok a → P a) ∧ ∀ e, result = .error e → e.BlamesNode ∨ Allowed e
  answer := by
    intro α P a ha result t h
    obtain ⟨rfl, rfl⟩ := Build.ends_pure.mp h
    simp [ha]
  blame := by
    intro α P e he result t h
    obtain ⟨rfl, rfl⟩ := Build.ends_throw.mp h
    simp [he]
  unfinished := by
    intro α P y result t h
    exact absurd h Build.not_ends_unfinished
  andThen := by
    intro α β P Q x y f g hx hf result t h
    rcases Build.ends_bind.mp h with ⟨a, u, ha, hrest⟩ | ⟨e, he, rfl⟩
    · obtain ⟨rfl, hok, -⟩ := hx _ _ ha
      exact hf a (hok a rfl) _ _ hrest
    · obtain ⟨rfl, -, herror⟩ := hx _ _ he
      refine ⟨rfl, by simp, ?_⟩
      rintro e' ⟨⟩
      exact herror e rfl

/-- The left build keeps the invariant, and what it answers the right builds answer in a fixed
state once they have levels enough, unless it is an excused error. -/
def following (I : StateInvariant σ) (Excused : SchemaError → Prop) (t : τ) :
    Simulation σ τ Nat where
  Relates P x y := ∀ s, I.Holds s → ∀ result s', Ends x s result s' → I.Holds s' ∧ I.Later s s' ∧
    (∀ a, result = .ok a → P a ∧ Eventually fun i => Ends (y i) t (.ok a) t) ∧
      ∀ e, result = .error e → Excused e ∨ Eventually fun i => Ends (y i) t (.error e) t
  answer := by
    intro α P a ha s hs result s' h
    obtain ⟨rfl, rfl⟩ := Build.ends_pure.mp h
    refine ⟨hs, I.refl s', ?_, by simp⟩
    rintro a' ⟨⟩
    exact ⟨ha, .of_forall fun _ => Build.ends_pure.mpr ⟨rfl, rfl⟩⟩
  blame := by
    intro α P e he s hs result s' h
    obtain ⟨rfl, rfl⟩ := Build.ends_throw.mp h
    refine ⟨hs, I.refl s', by simp, ?_⟩
    rintro e' ⟨⟩
    exact Or.inr (.of_forall fun _ => Build.ends_throw.mpr ⟨rfl, rfl⟩)
  unfinished := by
    intro α P y s hs result s' h
    exact absurd h Build.not_ends_unfinished
  andThen := by
    intro α β P Q x y f g hx hf s hs result s' h
    rcases Build.ends_bind.mp h with ⟨a, u, ha, hrest⟩ | ⟨e, he, rfl⟩
    · obtain ⟨hu, hlater, hok, -⟩ := hx s hs _ _ ha
      obtain ⟨hPa, hya⟩ := hok a rfl
      obtain ⟨hs', hlater', hok', herror'⟩ := hf a hPa u hu _ _ hrest
      refine ⟨hs', I.trans hlater hlater', ?_, ?_⟩
      · intro b hb
        obtain ⟨hQb, hyb⟩ := hok' b hb
        exact ⟨hQb, (hya.and hyb).imp fun i hi => Build.ends_bind.mpr (Or.inl ⟨a, t, hi.1, hi.2⟩)⟩
      · intro e he
        refine (herror' e he).imp_right fun hye => ?_
        exact (hya.and hye).imp fun i hi => Build.ends_bind.mpr (Or.inl ⟨a, t, hi.1, hi.2⟩)
    · obtain ⟨hs', hlater, -, herror⟩ := hx s hs _ _ he
      refine ⟨hs', hlater, by simp, ?_⟩
      rintro e' ⟨⟩
      exact (herror e rfl).imp_right fun hye =>
        hye.imp fun i hi => Build.ends_bind.mpr (Or.inr ⟨e, hi, rfl⟩)

/-- What follows is followed by all builds that come to the same ends as the right ones. -/
theorem following_mono {I : StateInvariant σ} {Excused : SchemaError → Prop} {t : τ} {α : Type}
    {P : α → Prop} {x : Build σ α} {y y' : Nat → Build τ α}
    (h : (following I Excused t).Relates P x y)
    (hright : ∀ result, (Eventually fun i => Ends (y i) t result t) →
      Eventually fun i => Ends (y' i) t result t) :
    (following I Excused t).Relates P x y' := by
  intro s hs result s' hends
  obtain ⟨hs', hlater, hok, herror⟩ := h s hs result s' hends
  exact ⟨hs', hlater, fun a ha => (hok a ha).imp_right (hright _),
    fun e he => (herror e he).imp_right (hright _)⟩

/-- What the left build answers the right one answers too, from every good state, and leaves a
good state behind. -/
def succeeding (s : σ) (Good : τ → Prop) : Simulation σ τ Unit where
  Relates P x y := ∀ a s', Ends x s (.ok a) s' → s' = s ∧ P a ∧
    ∀ t, Good t → ∃ t', Good t' ∧ Ends (y ()) t (.ok a) t'
  answer := by
    intro α P a ha a' s' h
    obtain ⟨rfl, rfl⟩ := Build.ends_pure_ok.mp h
    exact ⟨rfl, ha, fun t ht => ⟨t, ht, Build.ends_pure.mpr ⟨rfl, rfl⟩⟩⟩
  blame := by
    intro α P e he a s' h
    exact absurd (Build.ends_throw.mp h).1 (by simp)
  unfinished := by
    intro α P y a s' h
    exact absurd h Build.not_ends_unfinished
  andThen := by
    intro α β P Q x y f g hx hf b s' h
    obtain ⟨a, u, ha, hrest⟩ := Build.ends_bind_ok.mp h
    obtain ⟨rfl, hPa, hright⟩ := hx a u ha
    obtain ⟨rfl, hQb, hright'⟩ := hf a hPa b s' hrest
    refine ⟨rfl, hQb, fun t ht => ?_⟩
    obtain ⟨t₁, ht₁, hends⟩ := hright t ht
    obtain ⟨t₂, ht₂, hends'⟩ := hright' t₁ ht₁
    exact ⟨t₂, ht₂, Build.ends_bind_ok.mpr ⟨a, t₁, hends, hends'⟩⟩

end Simulation
end Schemata
