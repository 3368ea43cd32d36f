import Schemata.Proofs.Building.Levels
import Schemata.Proofs.Building.Outcome
import Schemata.Proofs.Registry.Document

/-!
# Fetching without a cache

Without a cache nothing is written, so a fetch either finds its document faulty or builds it in
the state it started in.  More levels change no answer, so `Registry.Answers` can speak of *the*
answer of a name under a chain.
-/

namespace Schemata

open Build (Approximates Ends Reads)
open Json (Members Value depthLimit)

/-! ## Built texts -/

/-- The text of a built tree. -/
def builtText (built : Members) : String :=
  (Value.object built).compact

/-- The text is that of a tree without references. -/
def BuiltText (text : String) : Prop :=
  ∃ built, Resolved built ∧ text = builtText built

namespace Node

theorem Child.of_reread {node child : Members} (h : Child (Value.rereadMembers node) child) :
    ∃ old, Child node old ∧ child = Value.rereadMembers old := by
  have hobject : ∀ (v : Value) (members : Members), Value.reread v = .object members →
      ∃ old, v = .object old ∧ members = Value.rereadMembers old := by
    intro v members hv
    cases v with
    | object old =>
      rw [Value.reread, Value.object.injEq] at hv
      exact ⟨old, rfl, hv.symm⟩
    | _ => simp [Value.reread] at hv
  cases h with
  | property hprops hchild =>
    rw [Value.find?_rereadMembers, Option.map_eq_some_iff] at hprops
    obtain ⟨v, hprops, hv⟩ := hprops
    obtain ⟨children, rfl, rfl⟩ := hobject v _ hv
    rw [Value.find?_rereadMembers, Option.map_eq_some_iff] at hchild
    obtain ⟨w, hchild, hw⟩ := hchild
    obtain ⟨old, rfl, rfl⟩ := hobject w _ hw
    exact ⟨old, .property hprops hchild, rfl⟩
  | item hitem =>
    rw [Value.find?_rereadMembers, Option.map_eq_some_iff] at hitem
    obtain ⟨v, hitem, hv⟩ := hitem
    obtain ⟨old, rfl, rfl⟩ := hobject v _ hv
    exact ⟨old, .item hitem, rfl⟩
  | tupleItem htuple hmem =>
    rw [Value.find?_rereadMembers, Option.map_eq_some_iff] at htuple
    obtain ⟨v, htuple, hv⟩ := htuple
    cases v with
    | array items =>
      rw [Value.reread, Value.array.injEq, Value.rereadItems_eq_map] at hv
      rw [← hv, List.mem_map] at hmem
      obtain ⟨w, hw, hmem⟩ := hmem
      obtain ⟨old, rfl, rfl⟩ := hobject w _ hmem
      exact ⟨old, .tupleItem htuple hw, rfl⟩
    | _ => simp [Value.reread] at hv

theorem Contains.of_reread {node sub : Members} (h : Contains (Value.rereadMembers node) sub) :
    ∃ old, Contains node old ∧ sub = Value.rereadMembers old := by
  induction h with
  | refl => exact ⟨node, Relation.ReflTransGen.refl, rfl⟩
  | tail _ hchild ih =>
    obtain ⟨old, hold, rfl⟩ := ih
    obtain ⟨below, hbelow, rfl⟩ := hchild.of_reread
    exact ⟨below, hold.tail hbelow, rfl⟩

theorem ownReferences_reread {node : Members} :
    ownReferences (Value.rereadMembers node) = ownReferences node := by
  unfold ownReferences
  rw [Value.find?_rereadMembers]
  cases Members.find? "extends" node with
  | none => rfl
  | some v =>
    cases v with
    | array items =>
      rw [Option.map_some, Value.reread, Value.rereadItems_eq_map]
      simp only [List.filterMap_map]
      congr 1
      funext item
      cases item <;> simp [Value.reread, Value.string?]
    | _ => simp [Value.reread]

/-- Reading back keeps the references. -/
theorem Mentions.of_reread {node : Members} {reference : String}
    (h : Mentions (Value.rereadMembers node) reference) : Mentions node reference := by
  obtain ⟨sub, hsub, hown⟩ := h
  obtain ⟨old, hold, rfl⟩ := hsub.of_reread
  exact ⟨old, hold, ownReferences_reread ▸ hown⟩

/-- Reading back adds no reference. -/
theorem Closed.reread {node : Members} (h : Closed node) : Closed (Value.rereadMembers node) := by
  intro sub hsub
  obtain ⟨old, hold, rfl⟩ := hsub.of_reread
  rw [Value.find?_rereadMembers, h old hold]
  rfl

end Node

theorem Resolved.reread {built : Members} (h : Resolved built) :
    Resolved (Value.rereadMembers built) where
  unique := by
    have hunique := Value.unique_reread h.unique
    rwa [Value.reread] at hunique
  closed := h.closed.reread

/-- A parent that is parsed from a built text has no references. -/
theorem BuiltText.resolved {name text : String} {members : Members} (h : BuiltText text)
    (hparse : parseDocument name text = .ok members) : Resolved members := by
  obtain ⟨built, hbuilt, rfl⟩ := h
  rw [(eq_of_parseDocument_compact hbuilt.unique hparse).1]
  exact hbuilt.reread

namespace Registry

variable {σ : Type} {r : Registry σ} {s : σ}

/-! ## One step of a fetch -/

/-- The text of a document that is built with the given parents. -/
def buildDocument (parent : String → Build σ Members) (levels : Nat) (document : Members) :
    Build σ String :=
  builtText <$> Building.buildNode parent levels [] document

/-- The parents of a document, fetched without a cache. -/
abbrev parents (r : Registry σ) (levels : Nat) (chain : List String) (name : String) :
    String → Build σ Members :=
  r.parent (r.fetch false levels) (chain ++ [name]) (Name.directory name)

theorem ends_fetch_uncached {levels : Nat} {chain : List String} {name : String} {t : σ}
    {result : Except SchemaError String} :
    Ends (r.fetch false (levels + 1) chain name) s result t ↔
      (∃ e, r.loaded s (Name.normalize name) = .error e ∧ result = .error e ∧ t = s) ∨
        ∃ document, r.document? s (Name.normalize name) = some document ∧
          Ends (buildDocument (r.parents levels chain (Name.normalize name)) levels document)
            s result t := by
  have hfetch : r.fetch false (levels + 1) chain name = (do
      let loaded ← r.loadDocument (Name.normalize name)
      buildDocument (r.parents levels chain (Name.normalize name)) levels loaded.2) := by
    rw [fetch]
    simp only [Bool.false_eq_true, if_false, pure_bind, bind_pure_comp]
    rfl
  rw [hfetch]
  exact ends_loadDocument_bind

/-- A fetch that is answered built a stored document. -/
theorem ends_fetch_uncached_ok {levels : Nat} {chain : List String} {name : String} {t : σ}
    {text : String} :
    Ends (r.fetch false (levels + 1) chain name) s (.ok text) t ↔
      ∃ document, r.document? s (Name.normalize name) = some document ∧
        ∃ built, Ends (Building.buildNode (r.parents levels chain (Name.normalize name)) levels []
          document) s (.ok built) t ∧ text = builtText built := by
  rw [ends_fetch_uncached]
  simp only [buildDocument, Build.ends_map_ok]
  simp

theorem ends_fetch_of_built {levels : Nat} {chain : List String} {name : String} {t : σ}
    {document built : Members} (hnormal : Name.normalize name = name)
    (hdocument : r.document? s name = some document)
    (hbuilt : Ends (Building.buildNode (r.parents levels chain name) levels [] document) s
      (.ok built) t) :
    Ends (r.fetch false (levels + 1) chain name) s (.ok (builtText built)) t := by
  refine ends_fetch_uncached_ok.mpr ?_
  rw [hnormal]
  exact ⟨document, hdocument, built, hbuilt, rfl⟩

/-- How the build of an inline text ends. -/
theorem ends_buildText {levels : Nat} {text directory : String} {t : σ}
    {result : Except SchemaError String} :
    Ends (r.buildText levels text directory) s result t ↔
      (∃ e, parseDocument inlineName text = .error e ∧ result = .error e ∧ t = s) ∨
        ∃ document, parseDocument inlineName text = .ok document ∧
          Ends (buildDocument (r.parent (r.fetch r.usesCache levels) [] directory) levels document)
            s result t := by
  have hbuild : r.buildText levels text directory = (do
      let document ← Build.ofExcept (parseDocument inlineName text)
      buildDocument (r.parent (r.fetch r.usesCache levels) [] directory) levels document) := by
    unfold buildText buildTree buildDocument
    simp only [map_eq_pure_bind, bind_assoc, pure_bind]
    rfl
  rw [hbuild, Build.ends_bind]
  cases parseDocument inlineName text with
  | error e => simp [and_comm]
  | ok document => simp

/-- How a parent ends: a name of the chain is a cycle, and any other is fetched and parsed. -/
theorem ends_parent {fetch : List String → String → Build σ String} {chain : List String}
    {directory reference : String} {t : σ} {result : Except SchemaError Members} :
    Ends (r.parent fetch chain directory reference) s result t ↔
      (r.target directory reference ∈ chain ∧
          result = .error (.cyclicExtend (chain ++ [r.target directory reference])) ∧ t = s) ∨
        r.target directory reference ∉ chain ∧
          ((∃ text, Ends (fetch chain (r.target directory reference)) s (.ok text) t ∧
              result = (parseDocument (r.target directory reference) text).mapError
                (SchemaError.through (r.target directory reference))) ∨
            ∃ e, Ends (fetch chain (r.target directory reference)) s (.error e) t ∧
              result = .error (e.through (r.target directory reference))) := by
  have hunfold : r.parent fetch chain directory reference =
      if chain.contains (r.target directory reference) then
        throw (.cyclicExtend (chain ++ [r.target directory reference]))
      else
        Build.mapError (SchemaError.through (r.target directory reference)) (do
          let text ← fetch chain (r.target directory reference)
          Build.ofExcept (parseDocument (r.target directory reference) text)) := rfl
  rw [hunfold]
  by_cases hmem : r.target directory reference ∈ chain
  · rw [if_pos (List.contains_iff_mem.mpr hmem)]
    simp [hmem]
  · rw [if_neg (fun h => hmem (List.contains_iff_mem.mp h))]
    simp only [hmem, false_and, false_or, not_false_eq_true, true_and, Build.ends_mapError,
      Build.ends_bind, Build.ends_ofExcept]
    constructor
    · rintro (⟨members, ⟨text, u, hfetch, hparse, rfl⟩ | ⟨e, -, he⟩, rfl⟩ |
        ⟨e, ⟨text, u, hfetch, hparse, rfl⟩ | ⟨e', hfetch, he⟩, rfl⟩)
      · exact Or.inl ⟨text, hfetch, by rw [← hparse]; rfl⟩
      · simp at he
      · exact Or.inl ⟨text, hfetch, by rw [← hparse]; rfl⟩
      · rw [Except.error.injEq] at he
        exact Or.inr ⟨e', hfetch, by rw [he]⟩
    · rintro (⟨text, hfetch, rfl⟩ | ⟨e, hfetch, rfl⟩)
      · cases hparse : parseDocument (r.target directory reference) text with
        | ok members => exact Or.inl ⟨members, Or.inl ⟨text, t, hfetch, hparse.symm, rfl⟩, rfl⟩
        | error e => exact Or.inr ⟨e, Or.inl ⟨text, t, hfetch, hparse.symm, rfl⟩, rfl⟩
      · exact Or.inr ⟨e, Or.inr ⟨e, hfetch, rfl⟩, rfl⟩

/-- What a parent becomes when its name is fetched. -/
def parentOutcome (name : String) : Except SchemaError String → Except SchemaError Members
  | .ok text => (parseDocument name text).mapError (SchemaError.through name)
  | .error e => .error (e.through name)

theorem ends_parent_of_fetch {fetch : List String → String → Build σ String} {chain : List String}
    {directory reference : String} {t : σ} {result : Except SchemaError String}
    (hmem : r.target directory reference ∉ chain)
    (h : Ends (fetch chain (r.target directory reference)) s result t) :
    Ends (r.parent fetch chain directory reference) s
      (parentOutcome (r.target directory reference) result) t := by
  refine ends_parent.mpr (Or.inr ⟨hmem, ?_⟩)
  cases result with
  | ok text => exact Or.inl ⟨text, h, rfl⟩
  | error e => exact Or.inr ⟨e, h, rfl⟩

/-- A parent that is answered was fetched from outside the chain, and its text was parsed. -/
theorem ends_parent_ok {fetch : List String → String → Build σ String} {chain : List String}
    {directory reference : String} {t : σ} {members : Members} :
    Ends (r.parent fetch chain directory reference) s (.ok members) t ↔
      r.target directory reference ∉ chain ∧
        ∃ text, Ends (fetch chain (r.target directory reference)) s (.ok text) t ∧
          parseDocument (r.target directory reference) text = .ok members := by
  rw [ends_parent]
  constructor
  · rintro (⟨-, he, -⟩ | ⟨hmem, ⟨text, htext, hparse⟩ | ⟨e, -, he⟩⟩)
    · simp at he
    · exact ⟨hmem, text, htext, mapError_eq_ok.mp hparse.symm⟩
    · simp at he
  · rintro ⟨hmem, text, htext, hparse⟩
    exact Or.inr ⟨hmem, Or.inl ⟨text, htext, (mapError_eq_ok.mpr hparse).symm⟩⟩

/-! ## Builds that only read -/

theorem reads_parent {fetch : List String → String → Build σ String} {chain : List String}
    {directory reference : String}
    (hfetch : Reads s BuiltText (fetch chain (r.target directory reference))) :
    Reads s Resolved (r.parent fetch chain directory reference) := by
  intro result t h
  rcases ends_parent.mp h with ⟨-, rfl, rfl⟩ | ⟨-, ⟨text, htext, rfl⟩ | ⟨e, he, rfl⟩⟩
  · simp
  · obtain ⟨rfl, hbuilt⟩ := hfetch _ _ htext
    refine ⟨rfl, fun members hmembers => ?_⟩
    exact (hbuilt text rfl).resolved (mapError_eq_ok.mp hmembers)
  · exact ⟨(hfetch _ _ he).1, by simp⟩

section Document

variable {parent : String → Build σ Members} {levels : Nat} {document : Members}

/-- An error blames the document, or it is the error of a parent that the document mentions. -/
theorem outcome_buildDocument (hu : Value.Unique (.object document))
    (hparent : ∀ reference, Node.Mentions document reference → Reads s Resolved (parent reference))
    {result : Except SchemaError String} {t : σ}
    (h : Ends (buildDocument parent levels document) s result t) :
    t = s ∧ (∀ text, result = .ok text → BuiltText text) ∧
      ∀ e, result = .error e → e.BlamesNode ∨
        ∃ reference, Node.Mentions document reference ∧ Ends (parent reference) s (.error e) s := by
  have hnode : (Simulation.outcome s fun e => ∃ reference, Node.Mentions document reference ∧
      Ends (parent reference) s (.error e) s).Relates Resolved
        (Building.buildNode parent levels [] document)
        fun _ => Building.buildNode parent levels [] document := by
    refine Simulation.buildNode _ (Nat.le_refl levels) hu fun reference hmentions result t h => ?_
    obtain ⟨rfl, hok⟩ := hparent reference hmentions result t h
    exact ⟨rfl, hok, fun e he => Or.inr ⟨reference, hmentions, he ▸ h⟩⟩
  rcases Build.ends_map.mp h with ⟨built, hbuilt, rfl⟩ | ⟨e, he, rfl⟩
  · obtain ⟨rfl, hok, -⟩ := hnode _ _ hbuilt
    refine ⟨rfl, ?_, by simp⟩
    rintro text ⟨⟩
    exact ⟨built, hok built rfl, rfl⟩
  · obtain ⟨rfl, -, herror⟩ := hnode _ _ he
    refine ⟨rfl, by simp, ?_⟩
    rintro e' ⟨⟩
    exact herror e rfl

end Document

/-- A fetch without a cache only reads, and answers the text of a built tree. -/
theorem reads_fetch (levels : Nat) (chain : List String) (name : String) :
    Reads s BuiltText (r.fetch false levels chain name) := by
  induction levels generalizing chain name with
  | zero =>
    intro result t h
    exact absurd h Build.not_ends_unfinished
  | succ levels ih =>
    intro result t h
    rcases ends_fetch_uncached.mp h with ⟨e, -, rfl, rfl⟩ | ⟨document, hdocument, hbuild⟩
    · simp
    · obtain ⟨rfl, hok, -⟩ := outcome_buildDocument (unique_of_document? hdocument)
        (fun reference _ => reads_parent (ih _ _)) hbuild
      exact ⟨rfl, hok⟩

theorem reads_parents (levels : Nat) (chain : List String) (name reference : String) :
    Reads s Resolved (r.parents levels chain name reference) :=
  reads_parent (reads_fetch levels _ _)

/-! ## More levels -/

theorem approximates_parent {fetch fetch' : List String → String → Build σ String}
    {chain : List String} {directory reference : String}
    (hfetch : ∀ name, Approximates (fetch chain name) (fetch' chain name)) :
    Approximates (r.parent fetch chain directory reference)
      (r.parent fetch' chain directory reference) := by
  unfold parent
  by_cases hmem : chain.contains (Name.normalize (r.resolve reference directory)) = true
  · simp only [hmem, if_true]
    exact .refl _
  · simp only [hmem]
    exact ((hfetch _).bind fun _ => .refl _).mapError

theorem approximates_buildDocument {parent parent' : String → Build σ Members}
    {levels levels' : Nat} {document : Members} (hlevels : levels ≤ levels')
    (hparent : ∀ reference, Approximates (parent reference) (parent' reference)) :
    Approximates (buildDocument parent levels document)
      (buildDocument parent' levels' document) :=
  (Building.approximates_buildNode hlevels hparent).map

/-- A fetch is monotone in its levels, through a cache or without. -/
theorem approximates_fetch {cached : Bool} {levels levels' : Nat} (hlevels : levels ≤ levels')
    (chain : List String) (name : String) :
    Approximates (r.fetch cached levels chain name) (r.fetch cached levels' chain name) := by
  induction levels generalizing levels' chain name with
  | zero => exact .unfinished
  | succ levels ih =>
    obtain ⟨more, rfl⟩ : ∃ more, levels' = more + 1 := ⟨levels' - 1, by omega⟩
    rw [fetch, fetch]
    refine (Approximates.refl _).bind fun found => ?_
    cases found with
    | some text => exact .refl _
    | none =>
      refine (Approximates.refl _).bind fun loaded => ?_
      refine (Building.approximates_buildNode (by omega) fun reference => ?_).bind fun _ => .refl _
      exact approximates_parent fun other => ih (by omega) _ other

/-- So is the build of an inline text. -/
theorem approximates_buildText {levels levels' : Nat} (hlevels : levels ≤ levels')
    (text directory : String) :
    Approximates (r.buildText levels text directory) (r.buildText levels' text directory) := by
  refine (Approximates.refl _).bind fun members => Approximates.bind ?_ fun _ => .refl _
  refine (Building.approximates_buildNode hlevels fun reference => ?_).bind fun _ => .refl _
  exact approximates_parent fun other => approximates_fetch hlevels _ other

/-! ## Comparing fetches -/

/-- If the parents of a document are related, so is its text. -/
theorem relates_buildDocument {τ ι : Type} (S : Simulation σ τ ι)
    {parent₁ : String → Build σ Members} {parent₂ : ι → String → Build τ Members} {levels : Nat}
    {document : Members} (hu : Value.Unique (.object document))
    (hparent : ∀ reference, Node.Mentions document reference →
      S.Relates Resolved (parent₁ reference) fun i => parent₂ i reference) :
    S.Relates BuiltText (buildDocument parent₁ levels document)
      fun i => buildDocument (parent₂ i) levels document := by
  simp only [buildDocument, map_eq_pure_bind]
  refine S.andThen (S.buildNode (Nat.le_refl levels) hu hparent) fun built hbuilt => ?_
  exact S.answer ⟨built, hbuilt, rfl⟩

section Following

variable {τ : Type} {I : StateInvariant σ} {Excused : SchemaError → Prop} {t : τ}

/-- If the parents of a document follow, so does its text. -/
theorem following_buildDocument {parent₁ : String → Build σ Members}
    {parent₂ : Nat → String → Build τ Members} {levels : Nat} {document : Members}
    (hu : Value.Unique (.object document))
    (hparent : ∀ reference, Node.Mentions document reference →
      (Simulation.following I Excused t).Relates Resolved (parent₁ reference)
        fun i => parent₂ i reference) :
    (Simulation.following I Excused t).Relates BuiltText (buildDocument parent₁ levels document)
      fun i => buildDocument (parent₂ i) i document := by
  refine Simulation.following_mono (relates_buildDocument _ hu hparent) ?_
  rintro result ⟨enough, h⟩
  refine ⟨max enough levels, fun i hi => ?_⟩
  exact approximates_buildDocument (by omega) (fun _ => .refl _) _ _ _ (h i (by omega))

/-- If the fetch of a parent follows, so does the parent. -/
theorem following_parent {r₂ : Registry τ} {fetch₁ : List String → String → Build σ String}
    {fetch₂ : Nat → List String → String → Build τ String} {chain chain' : List String}
    {directory reference : String}
    (htarget : r₂.target directory reference = r.target directory reference)
    (hthrough : ∀ name e, Excused e → Excused (e.through name))
    (hcycle : r.target directory reference ∈ chain →
      Excused (.cyclicExtend (chain ++ [r.target directory reference])) ∨ chain' = chain)
    (hfresh : r.target directory reference ∉ chain → r.target directory reference ∉ chain')
    (hfetch : r.target directory reference ∉ chain →
      (Simulation.following I Excused t).Relates BuiltText
        (fetch₁ chain (r.target directory reference))
        fun i => fetch₂ i chain' (r.target directory reference)) :
    (Simulation.following I Excused t).Relates Resolved
      (r.parent fetch₁ chain directory reference)
      fun i => r₂.parent (fetch₂ i) chain' directory reference := by
  intro s hs result s' h
  rcases ends_parent.mp h with ⟨hmem, rfl, rfl⟩ | ⟨hmem, hcases⟩
  · refine ⟨hs, I.refl _, by simp, ?_⟩
    rintro e ⟨⟩
    refine (hcycle hmem).imp_right fun hsame => .of_forall fun i => ends_parent.mpr ?_
    rw [htarget, hsame]
    exact Or.inl ⟨hmem, rfl, rfl⟩
  · have hmem' : r₂.target directory reference ∉ chain' := htarget ▸ hfresh hmem
    have hright : ∀ result, (Eventually fun i =>
        Ends (fetch₂ i chain' (r.target directory reference)) t result t) → Eventually fun i =>
          Ends (r₂.parent (fetch₂ i) chain' directory reference) t
            (parentOutcome (r.target directory reference) result) t := by
      intro result heventually
      refine heventually.imp fun i hi => ?_
      rw [← htarget] at hi ⊢
      exact ends_parent_of_fetch hmem' hi
    rcases hcases with ⟨text, htext, rfl⟩ | ⟨e, he, rfl⟩
    · obtain ⟨hs', hlater, hok, -⟩ := hfetch hmem s hs _ _ htext
      obtain ⟨hbuilt, heventually⟩ := hok text rfl
      refine ⟨hs', hlater, ?_, ?_⟩
      · intro members hmembers
        exact ⟨hbuilt.resolved (mapError_eq_ok.mp hmembers), hmembers ▸ hright _ heventually⟩
      · intro e he
        exact Or.inr (he ▸ hright _ heventually)
    · obtain ⟨hs', hlater, -, herror⟩ := hfetch hmem s hs _ _ he
      refine ⟨hs', hlater, by simp, ?_⟩
      rintro e' ⟨⟩
      rcases herror e rfl with hexcused | heventually
      · exact Or.inl (hthrough _ _ hexcused)
      · exact Or.inr (hright _ heventually)

end Following

end Registry
end Schemata
