import Schemata.Proofs.Registry.Cached

/-!
# Who is to blame for a broken reference

The fetch of a name fails by its own document, or by that of a parent, and then the error of the
parent is wrapped once.  A cycle is never wrapped, and every other error stays the same when fewer
names are under construction.  So the parent gives the wrapped error on its own as well, and the
references of the wrappers lead along the documents to the one that fails by itself.
-/

namespace Schemata

open Build (Ends)
open Json (Value depthLimit)

namespace SchemaError

/-- The references of the wrappers, outermost first. -/
def references : SchemaError → List String
  | brokenExtend reference source => reference :: source.references
  | _ => []

/-- The error, or one inside it, reports a cycle. -/
def TellsOfCycle (e : SchemaError) : Prop :=
  ∃ cycle, .cyclicExtend cycle ∈ e :: e.sources

variable {e : SchemaError} {reference : String}

theorem IsCyclic.tellsOfCycle (h : e.IsCyclic) : e.TellsOfCycle := by
  obtain ⟨cycle, rfl⟩ := h
  exact ⟨cycle, List.mem_cons_self⟩

theorem not_isCyclic_brokenExtend : ¬ (brokenExtend reference e).IsCyclic := by
  rintro ⟨cycle, hcycle⟩
  simp at hcycle

theorem tellsOfCycle_brokenExtend_iff :
    (brokenExtend reference e).TellsOfCycle ↔ e.TellsOfCycle := by
  simp [TellsOfCycle, sources]

theorem TellsOfCycle.of_through (h : (e.through reference).TellsOfCycle) : e.TellsOfCycle := by
  cases e with
  | cyclicExtend cycle => exact h
  | _ => exact tellsOfCycle_brokenExtend_iff.mp h

theorem BlamesNode.not_tellsOfCycle (h : e.BlamesNode) : ¬ e.TellsOfCycle := by
  rintro ⟨cycle, hmem⟩
  rw [h.sources_eq_nil, List.mem_singleton] at hmem
  subst hmem
  exact h

/-- Only wrappers and cycles are seen through a reference. -/
theorem through_eq_brokenExtend {outer : String} {source : SchemaError}
    (h : e.through outer = .brokenExtend reference source) :
    outer = reference ∧ e = source ∧ ¬ e.IsCyclic := by
  cases e with
  | cyclicExtend cycle => simp [through] at h
  | _ =>
    rw [through, brokenExtend.injEq] at h
    · refine ⟨h.1, h.2, ?_⟩
      rintro ⟨cycle, hcycle⟩
      simp at hcycle
    · simp

/-- Wrappers do not change whether the documents are at fault. -/
theorem isInvalidSchema_innermost (e : SchemaError) :
    e.innermost.isInvalidSchema = e.isInvalidSchema := by
  induction e with
  | brokenExtend reference source ih => exact ih
  | _ => rfl

end SchemaError

namespace Registry

variable {σ : Type} {r : Registry σ} {s t : σ} {levels : Nat} {chain : List String}
  {name : String} {e : SchemaError}

/-- A cycle is reported as it is, however long the way to it. -/
theorem isCyclic_of_tellsOfCycle (h : Ends (r.fetch false levels chain name) s (.error e) t)
    (hcycle : e.TellsOfCycle) : e.IsCyclic := by
  induction levels generalizing chain name e t with
  | zero => exact absurd h Build.not_ends_unfinished
  | succ levels ih =>
    cases failsBy_of_ends h with
    | document hloaded =>
      obtain ⟨cycle, hmem⟩ := hcycle
      rcases loaded_error_cases hloaded with ⟨source, rfl⟩ | rfl | ⟨fault, rfl⟩ <;>
        simp [SchemaError.sources] at hmem
    | node hblames => exact absurd hcycle hblames.not_tellsOfCycle
    | cycle _ _ => exact ⟨_, rfl⟩
    | parent _ _ hparent he =>
      subst he
      exact (ih hparent hcycle.of_through).through _
    | text _ _ hparse =>
      obtain ⟨fault, rfl⟩ := exists_fault_of_parseDocument hparse
      obtain ⟨cycle, hmem⟩ := hcycle
      simp [SchemaError.sources] at hmem

/-! ## One reference -/

/-- The name has a text, but its tree is nested too deeply for the text to be parsed. -/
def TooDeep (r : Registry σ) (s : σ) (name : String) (e : SchemaError) : Prop :=
  ∃ built, r.Answers s [] name (.ok (builtText built)) ∧
    depthLimit < Value.nesting (.object built) ∧ parseDocument name (builtText built) = .error e

theorem tooDeep_of_answers {text : String} (h : r.Answers s [] name (.ok text))
    (hparse : parseDocument name text = .error e) : r.TooDeep s name e := by
  obtain ⟨built, hbuilt, rfl⟩ := h.builtText
  refine ⟨built, h, ?_, hparse⟩
  by_contra hnesting
  have hread : parseDocument name (builtText built) = .ok (Value.rereadMembers built) :=
    parseDocument_compact hbuilt.unique (Nat.le_of_not_lt hnesting)
  rw [hread] at hparse
  simp at hparse

/-- A wrapped error is one that the parent gives on its own, and no cycle is wrapped. -/
theorem brokenExtend_step {reference : String}
    (h : Ends (r.fetch false levels [] name) s (.error (.brokenExtend reference e)) t) :
    r.Refers s (Name.normalize name) reference ∧ ¬ e.TellsOfCycle ∧
      (r.Answers s [] reference (.error e) ∨ r.TooDeep s reference e) := by
  have hcycle : ¬ e.TellsOfCycle := by
    intro htells
    apply SchemaError.not_isCyclic_brokenExtend
    exact isCyclic_of_tellsOfCycle h (SchemaError.tellsOfCycle_brokenExtend_iff.mpr htells)
  cases levels with
  | zero => exact absurd h Build.not_ends_unfinished
  | succ levels =>
    cases failsBy_of_ends h with
    | document hloaded =>
      rcases loaded_error_cases hloaded with ⟨source, he⟩ | he | ⟨fault, he⟩ <;> simp at he
    | node hblames => exact hblames.elim
    | parent hrefers _ hparent he =>
      obtain ⟨rfl, rfl, hcyclic⟩ := SchemaError.through_eq_brokenExtend he.symm
      refine ⟨hrefers, hcycle, Or.inl ?_⟩
      exact (answers_of_ends ⟨rfl, rfl⟩ hparent).error_of_chain hcyclic (List.nil_subset _)
    | text hrefers htext hparse =>
      have hanswers : r.Answers s [] reference (.ok _) :=
        (answers_of_ends ⟨rfl, rfl⟩ htext).ok_of_chain hrefers.normal (by simp)
      exact ⟨hrefers, hcycle, Or.inr (tooDeep_of_answers hanswers hparse)⟩

/-! ## The whole way -/

/-- The error is the name's own: its document cannot be loaded, one of its nodes is at fault, or
its tree is nested too deeply. -/
inductive FailsItself (r : Registry σ) (s : σ) (name : String) (e : SchemaError) : Prop
  | document (h : r.loaded s name = .error e)
  | node (h : r.Answers s [] name (.error e)) (hblames : e.BlamesNode)
  | text (h : r.TooDeep s name e)

theorem failsItself_of_not_wrapped (hnormal : Name.normalize name = name)
    (h : r.Answers s [] name (.error e)) (hcyclic : ¬ e.IsCyclic)
    (hplain : ∀ reference source, e ≠ .brokenExtend reference source) : r.FailsItself s name e := by
  obtain ⟨levels, hends⟩ := h.exists
  cases levels with
  | zero => exact absurd hends Build.not_ends_unfinished
  | succ levels =>
    have hfails := failsBy_of_ends hends
    rw [hnormal] at hfails
    cases hfails with
    | document hloaded => exact .document hloaded
    | node hblames => exact .node h hblames
    | cycle _ _ => exact absurd ⟨_, rfl⟩ hcyclic
    | @parent other _ inner _ _ _ he =>
      subst he
      cases inner with
      | cyclicExtend cycle => exact absurd ⟨cycle, rfl⟩ hcyclic
      | _ => exact absurd rfl (hplain _ _)
    | text _ _ _ => exact absurd rfl (hplain _ _)

/-- The references of the wrappers lead from document to document, and the last one fails by
itself with the innermost error. -/
theorem exists_culprit (hnormal : Name.normalize name = name)
    (h : r.Answers s [] name (.error e)) (hcyclic : ¬ e.IsCyclic) :
    (name :: e.references).IsChain (r.Refers s) ∧
      ∃ culprit, (name :: e.references).getLast? = some culprit ∧
        r.FailsItself s culprit e.innermost := by
  induction e generalizing name with
  | brokenExtend reference source ih =>
    obtain ⟨levels, hends⟩ := h.exists
    obtain ⟨hrefers, htells, hanswers | hdeep⟩ := brokenExtend_step hends
    · have hsource : ¬ source.IsCyclic := fun hcycle => htells hcycle.tellsOfCycle
      obtain ⟨hlinked, culprit, hlast, hfails⟩ := ih hrefers.normal hanswers hsource
      rw [hnormal] at hrefers
      refine ⟨List.IsChain.cons_cons hrefers hlinked, culprit, ?_, hfails⟩
      rw [SchemaError.references, List.getLast?_cons_cons]
      exact hlast
    · obtain ⟨built, -, -, hparse⟩ := id hdeep
      obtain ⟨fault, rfl⟩ := exists_fault_of_parseDocument hparse
      rw [hnormal] at hrefers
      exact ⟨List.IsChain.cons_cons hrefers (.singleton _), reference, rfl, .text hdeep⟩
  | _ =>
    refine ⟨.singleton _, name, rfl, failsItself_of_not_wrapped hnormal h hcyclic ?_⟩
    intro reference source
    simp [SchemaError.innermost]

/-- A broken reference points at the culprit: the name refers to it, no cycle is wrapped, and the
parent gives the wrapped error on its own or has a text that is nested too deeply.  The references
of the wrappers lead to the name that fails by itself, and it alone decides whether the documents
are at fault. -/
theorem broken_extend_points_at_culprit {reference : String}
    (h : Ends (r.getSchemaUncached levels name) s (.error (.brokenExtend reference e)) t) :
    r.Refers s (Name.normalize name) reference ∧ ¬ e.TellsOfCycle ∧
      (r.Answers s [] reference (.error e) ∨ r.TooDeep s reference e) ∧
      (Name.normalize name :: reference :: e.references).IsChain (r.Refers s) ∧
      (∃ culprit, (reference :: e.references).getLast? = some culprit ∧
        r.FailsItself s culprit e.innermost) ∧
      (SchemaError.brokenExtend reference e).isInvalidSchema = e.innermost.isInvalidSchema := by
  obtain ⟨hrefers, htells, hparent⟩ := brokenExtend_step h
  have hanswers : r.Answers s [] (Name.normalize name) (.error (.brokenExtend reference e)) :=
    answers_normalize_iff.mpr (answers_of_ends ⟨rfl, rfl⟩ h)
  obtain ⟨hlinked, culprit, hlast, hfails⟩ :=
    exists_culprit (Name.normalize_normalize name) hanswers SchemaError.not_isCyclic_brokenExtend
  rw [SchemaError.references, List.getLast?_cons_cons] at hlast
  exact ⟨hrefers, htells, hparent, hlinked, ⟨culprit, hlast, hfails⟩,
    (SchemaError.isInvalidSchema_innermost e).symm⟩

/-- Three documents in a row, of which the last has a type that does not exist. -/
def descent : Registry Unit :=
  .ofTexts [("a", "\x7b\"extends\":\"./b\"\x7d"),
    ("b", "\x7b\"properties\":\x7b\"x\":\x7b\"extends\":[\"c\"]\x7d\x7d\x7d"),
    ("c", "\x7b\"type\":\"text\"\x7d")]

theorem ends_descent : Ends (descent.getSchemaUncached 6 "a") ()
    (.error (.brokenExtend "b" (.brokenExtend "c" (.invalidType "text" [])))) () := by
  unfold Ends
  decide +kernel

theorem descent_points_at_last :
    descent.Refers () "a" "b" ∧ descent.Refers () "b" "c" ∧
      descent.Answers () [] "b" (.error (.brokenExtend "c" (.invalidType "text" []))) ∧
      descent.FailsItself () "c" (.invalidType "text" []) ∧
      (SchemaError.brokenExtend "b"
        (.brokenExtend "c" (.invalidType "text" []))).isInvalidSchema = true := by
  obtain ⟨hrefers, -, hparent, hlinked, ⟨culprit, hlast, hfails⟩, hinvalid⟩ :=
    broken_extend_points_at_culprit ends_descent
  have ha : Name.normalize "a" = "a" := by decide +kernel
  rw [ha] at hrefers
  obtain rfl : "c" = culprit := Option.some.inj hlast
  refine ⟨hrefers, hlinked.tail.rel, ?_, hfails, hinvalid⟩
  rcases hparent with hanswers | ⟨built, -, -, hparse⟩
  · exact hanswers
  · obtain ⟨fault, he⟩ := exists_fault_of_parseDocument hparse
    simp at he

end Registry
end Schemata
