import Schemata.Proofs.Registry.Blame
import Schemata.Proofs.Registry.Session

/-!
# Chains of names under construction

The chain under which a name is fetched is consulted in one place only, where a reference leads
back into it, and what happens there ends the whole fetch.  So two fetches of one name under
different chains go side by side until one of them meets a cycle (`alongside_fetch`): the chain
decides whether there is an answer, and never which.
-/

namespace Schemata

open Build (Ends)

namespace Simulation

variable {σ : Type}

/-- Two builds in a fixed state that end alike, unless one of them meets a cycle. -/
def alongside (s : σ) : Simulation σ σ Unit where
  Relates P x y := ∀ result t, Ends x s result t → t = s ∧ (∀ a, result = .ok a → P a) ∧
    ((∃ cycle, result = .error (.cyclicExtend cycle)) ∨ Ends (y ()) s result s ∨
      ∃ cycle, Ends (y ()) s (.error (.cyclicExtend cycle)) s)
  answer := by
    intro α P a ha result t h
    obtain ⟨rfl, rfl⟩ := Build.ends_pure.mp h
    refine ⟨rfl, ?_, Or.inr (Or.inl (Build.ends_pure.mpr ⟨rfl, rfl⟩))⟩
    rintro a' ⟨⟩
    exact ha
  blame := by
    intro α P e he result t h
    obtain ⟨rfl, rfl⟩ := Build.ends_throw.mp h
    exact ⟨rfl, by simp, Or.inr (Or.inl (Build.ends_throw.mpr ⟨rfl, rfl⟩))⟩
  unfinished := by
    intro α P y result t h
    exact absurd h Build.not_ends_unfinished
  andThen := by
    intro α β P Q x y f g hx hf result t h
    rcases Build.ends_bind.mp h with ⟨a, u, ha, hrest⟩ | ⟨e, he, rfl⟩
    · obtain ⟨rfl, hPa, hends⟩ := hx _ _ ha
      obtain ⟨rfl, hQ, hrestEnds⟩ := hf a (hPa a rfl) _ _ hrest
      refine ⟨rfl, hQ, ?_⟩
      rcases hends with ⟨cycle, hcyclic⟩ | hright | ⟨cycle, hright⟩
      · simp at hcyclic
      · simpa only [Build.ends_bind_of_ok hright] using hrestEnds
      · exact Or.inr (Or.inr ⟨cycle, Build.ends_bind_of_error hright⟩)
    · obtain ⟨rfl, -, hends⟩ := hx _ _ he
      refine ⟨rfl, by simp, ?_⟩
      rcases hends with ⟨cycle, hcyclic⟩ | hright | ⟨cycle, hright⟩
      · exact Or.inl ⟨cycle, congrArg Except.error (Except.error.inj hcyclic)⟩
      · exact Or.inr (Or.inl (Build.ends_bind_of_error hright))
      · exact Or.inr (Or.inr ⟨cycle, Build.ends_bind_of_error hright⟩)

end Simulation

namespace Registry

variable {σ : Type} {r : Registry σ} {s : σ} {levels : Nat} {chain chain' : List String}
  {name : String}

/-- A parent outside the chain ends as the fetch of its name makes it. -/
theorem exists_fetch_of_parent {fetch : List String → String → Build σ String}
    {directory reference : String} {t : σ} {result : Except SchemaError Json.Members}
    (hmem : r.target directory reference ∉ chain)
    (h : Ends (r.parent fetch chain directory reference) s result t) :
    ∃ inner, Ends (fetch chain (r.target directory reference)) s inner t ∧
      result = parentOutcome (r.target directory reference) inner := by
  rcases ends_parent.mp h with ⟨hchain, -, -⟩ | ⟨-, ⟨text, htext, rfl⟩ | ⟨e, he, rfl⟩⟩
  · exact absurd hchain hmem
  · exact ⟨.ok text, htext, rfl⟩
  · exact ⟨.error e, he, rfl⟩

/-- If the fetches of a parent go side by side, so do the parents. -/
theorem alongside_parent {fetch : List String → String → Build σ String}
    {directory reference : String}
    (hfetch : (Simulation.alongside s).Relates BuiltText
      (fetch chain (r.target directory reference))
      fun _ => fetch chain' (r.target directory reference)) :
    (Simulation.alongside s).Relates Resolved (r.parent fetch chain directory reference)
      fun _ => r.parent fetch chain' directory reference := by
  intro result t h
  by_cases hmem : r.target directory reference ∈ chain
  · rcases ends_parent.mp h with ⟨-, rfl, rfl⟩ | ⟨hnot, -⟩
    · exact ⟨rfl, by simp, Or.inl ⟨_, rfl⟩⟩
    · exact absurd hmem hnot
  · obtain ⟨inner, hinner, rfl⟩ := exists_fetch_of_parent hmem h
    obtain ⟨rfl, hbuilt, hends⟩ := hfetch _ _ hinner
    refine ⟨rfl, ?_, ?_⟩
    · intro members hmembers
      cases inner with
      | ok text => exact (hbuilt text rfl).resolved (mapError_eq_ok.mp hmembers)
      | error e => simp [parentOutcome] at hmembers
    · by_cases hmem' : r.target directory reference ∈ chain'
      · exact Or.inr (Or.inr ⟨_, ends_parent.mpr (Or.inl ⟨hmem', rfl, rfl⟩)⟩)
      · rcases hends with ⟨cycle, rfl⟩ | hright | ⟨cycle, hright⟩
        · exact Or.inl ⟨cycle, rfl⟩
        · exact Or.inr (Or.inl (ends_parent_of_fetch hmem' hright))
        · exact Or.inr (Or.inr ⟨cycle, ends_parent_of_fetch hmem' hright⟩)

/-- The fetches of a name under two chains go side by side. -/
theorem alongside_fetch (levels : Nat) (chain chain' : List String) (name : String) :
    (Simulation.alongside s).Relates BuiltText (r.fetch false levels chain name)
      fun _ => r.fetch false levels chain' name := by
  induction levels generalizing chain chain' name with
  | zero => exact Simulation.unfinished _
  | succ levels ih =>
    intro result t h
    rcases ends_fetch_uncached.mp h with ⟨e, hloaded, rfl, rfl⟩ | ⟨document, hdocument, hbuild⟩
    · refine ⟨rfl, by simp, Or.inr (Or.inl ?_)⟩
      exact ends_fetch_uncached.mpr (Or.inl ⟨e, hloaded, rfl, rfl⟩)
    · have hbeside : (Simulation.alongside s).Relates BuiltText
          (buildDocument (r.parents levels chain (Name.normalize name)) levels document)
          fun _ => buildDocument (r.parents levels chain' (Name.normalize name)) levels document :=
        relates_buildDocument _ (unique_of_document? hdocument) fun reference _ =>
          alongside_parent (ih _ _ _)
      have hright : ∀ {result}, Ends (buildDocument
          (r.parents levels chain' (Name.normalize name)) levels document) s result s →
            Ends (r.fetch false (levels + 1) chain' name) s result s :=
        fun hends => ends_fetch_uncached.mpr (Or.inr ⟨document, hdocument, hends⟩)
      obtain ⟨hstate, hbuilt, hends⟩ := hbeside _ _ hbuild
      refine ⟨hstate, hbuilt, ?_⟩
      rcases hends with hcyclic | hsame | ⟨cycle, hcycle⟩
      · exact Or.inl hcyclic
      · exact Or.inr (Or.inl (hright hsame))
      · exact Or.inr (Or.inr ⟨cycle, hright hcycle⟩)

/-- What is known to be the answer under a chain is what a fetch with the same levels ends with, if
it ends so under some chain. -/
theorem ends_fetch_of_answers {result : Except SchemaError String} {t : σ}
    (h : Ends (r.fetch false levels chain name) s result t)
    (hanswers : r.Answers s chain' name result)
    (hcyclic : ∀ cycle, result ≠ .error (.cyclicExtend cycle)) :
    Ends (r.fetch false levels chain' name) s result s := by
  obtain ⟨-, -, ⟨cycle, rfl⟩ | hends | ⟨cycle, hcycle⟩⟩ :=
    alongside_fetch levels chain chain' name _ _ h
  · exact absurd rfl (hcyclic cycle)
  · exact hends
  · exact absurd (hanswers.unique (answers_of_ends ⟨rfl, rfl⟩ hcycle)) (hcyclic cycle)

/-- A text is answered under another chain exactly if the name reaches nothing of it. -/
theorem ends_fetch_iff_not_reaches {text : String} {t : σ}
    (h : Ends (r.fetch false levels chain name) s (.ok text) t) :
    Ends (r.fetch false levels chain' name) s (.ok text) s ↔
      ∀ other ∈ chain', ¬ r.Reaches s (Name.normalize name) other := by
  have hnormal : Name.normalize (Name.normalize name) = Name.normalize name :=
    Name.normalize_normalize name
  constructor
  · intro hends other hother
    have hanswers : r.Answers s chain' (Name.normalize name) (.ok text) :=
      answers_normalize_iff.mpr (answers_of_ends ⟨rfl, rfl⟩ hends)
    exact hanswers.not_reaches hnormal (List.mem_append_left _ hother)
  · intro hfresh
    have hanswers : r.Answers s chain (Name.normalize name) (.ok text) :=
      answers_normalize_iff.mpr (answers_of_ends ⟨rfl, rfl⟩ h)
    exact ends_fetch_of_answers h
      (answers_normalize_iff.mp (hanswers.ok_of_chain hnormal hfresh)) (by simp)

/-- If a name has a text under one chain, then under every other it has that text or meets a cycle,
and it has the text exactly if no name of the chain is reached by references from the name.  An
error that is no cycle is the error under every chain of some of the names.  In each case no more
levels are needed than under the first chain. -/
theorem chain_decides_only_whether (r : Registry σ) (s : σ) (name : String) :
    (∀ levels chain chain' text t, Ends (r.fetch false levels chain name) s (.ok text) t →
      t = s ∧
      (Ends (r.fetch false levels chain' name) s (.ok text) s ∨
        ∃ cycle, Ends (r.fetch false levels chain' name) s (.error (.cyclicExtend cycle)) s) ∧
      (Ends (r.fetch false levels chain' name) s (.ok text) s ↔
        ∀ other ∈ chain', ¬ r.Reaches s (Name.normalize name) other)) ∧
    ∀ levels chain chain' e t, Ends (r.fetch false levels chain name) s (.error e) t →
      ¬ e.IsCyclic → chain' ⊆ chain →
        t = s ∧ Ends (r.fetch false levels chain' name) s (.error e) s := by
  constructor
  · intro levels chain chain' text t h
    obtain ⟨rfl, -, hends⟩ := alongside_fetch levels chain chain' name _ _ h
    refine ⟨rfl, hends.resolve_left ?_, ends_fetch_iff_not_reaches h⟩
    simp
  · intro levels chain chain' e t h hcyclic hsub
    have hanswers : r.Answers s chain' name (.error e) :=
      (answers_of_ends ⟨rfl, rfl⟩ h).error_of_chain hcyclic hsub
    refine ⟨(reads_fetch _ _ _ _ _ h).1, ends_fetch_of_answers h hanswers ?_⟩
    intro cycle he
    exact hcyclic ⟨cycle, Except.error.inj he⟩

end Registry

namespace Session

open Registry

theorem family_reaches_only {other : String} (h : family.plain.Reaches () "a" other) :
    other = "b" := by
  obtain ⟨middle, hmiddle, hrefers⟩ := Relation.TransGen.tail'_iff.mp h
  exact family_refers (family_reaches hmiddle) hrefers

/-- The first document has its text under its own name, and not under that of its parent; and three
documents in a row fail alike under fewer names. -/
theorem family_under_other_chains :
    Ends (family.plain.fetch false 4 ["c"] "a") () (.ok "\x7b\"type\":\"string\"\x7d") () ∧
      Ends (family.plain.fetch false 4 ["d", "a"] "a") ()
        (.ok "\x7b\"type\":\"string\"\x7d") () ∧
      (∃ cycle, Ends (family.plain.fetch false 4 ["d", "b"] "a") ()
        (.error (.cyclicExtend cycle)) ()) ∧
      Ends (descent.fetch false 6 ["d", "e"] "a") ()
        (.error (.brokenExtend "b" (.brokenExtend "c" (.invalidType "text" [])))) () ∧
      Ends (descent.fetch false 6 ["e"] "a") ()
        (.error (.brokenExtend "b" (.brokenExtend "c" (.invalidType "text" [])))) () := by
  have hnormal : Name.normalize "a" = "a" := by decide +kernel
  have hok : Ends (family.plain.fetch false 4 ["c"] "a") ()
      (.ok "\x7b\"type\":\"string\"\x7d") () := by
    unfold Ends
    decide +kernel
  have herror : Ends (descent.fetch false 6 ["d", "e"] "a") ()
      (.error (.brokenExtend "b" (.brokenExtend "c" (.invalidType "text" [])))) () := by
    unfold Ends
    decide +kernel
  obtain ⟨htexts, -⟩ := chain_decides_only_whether family.plain () "a"
  obtain ⟨-, herrors⟩ := chain_decides_only_whether descent () "a"
  refine ⟨hok, ?_, ?_, herror, ?_⟩
  · refine (htexts 4 ["c"] ["d", "a"] _ _ hok).2.2.mpr ?_
    intro other hother hreach
    rw [hnormal] at hreach
    obtain rfl := family_reaches_only hreach
    simp at hother
  · obtain ⟨-, heither, hiff⟩ := htexts 4 ["c"] ["d", "b"] _ _ hok
    refine heither.resolve_left fun hends => ?_
    have hrefers : family.plain.Refers () (Name.normalize "a") "b" := by
      rw [hnormal]
      exact ⟨[("extends", .string "b")], by decide +kernel, "b",
        Node.mentions_of_own (List.mem_singleton_self _), by decide +kernel⟩
    exact hiff.mp hends "b" (by simp) (.single hrefers)
  · have hcyclic : ¬ (SchemaError.brokenExtend "b"
        (.brokenExtend "c" (.invalidType "text" []))).IsCyclic :=
      SchemaError.not_isCyclic_brokenExtend
    exact (herrors 6 ["d", "e"] ["e"] _ _ herror hcyclic (by simp)).2

end Session
end Schemata
