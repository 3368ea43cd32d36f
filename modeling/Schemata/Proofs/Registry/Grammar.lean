import Schemata.Proofs.Building.Finished
import Schemata.Proofs.Registry.Fetch
import Schemata.Proofs.Validation.FallThrough

/-!
# What a registry builds is in the grammar

Without a cache every parent is the text of a built tree, read back.  So whatever the documents
hold and however references are resolved, a tree or a text that is built has a node of the grammar
at every node position, and no check against it falls through.
-/

namespace Schemata

open Build (Ends Reads)
open Json (Members Value depthLimit)
open Validation (Policy WalksThrough)

namespace Node

variable {node : Members} {v w : Value}

/-! ## Reading back -/

/-- What stands at a node position is read back in its place. -/
theorem Part.of_reread (h : Part (Value.rereadMembers node) w) :
    ∃ old, Part node old ∧ w = Value.reread old := by
  cases h with
  | property hprops hmem =>
    rw [Value.find?_rereadMembers, Option.map_eq_some_iff] at hprops
    obtain ⟨v, hprops, hv⟩ := hprops
    cases v with
    | object children =>
      rw [Value.reread, Value.object.injEq, Value.rereadMembers_eq_map] at hv
      rw [← hv, List.mem_map] at hmem
      obtain ⟨⟨name, old⟩, hold, heq⟩ := hmem
      rw [Prod.mk.injEq] at heq
      exact ⟨old, .property hprops hold, heq.2.symm⟩
    | _ => simp [Value.reread] at hv
  | item hitem htuple =>
    rw [Value.find?_rereadMembers, Option.map_eq_some_iff] at hitem
    obtain ⟨old, hold, rfl⟩ := hitem
    refine ⟨old, .item hold ?_, rfl⟩
    rintro tuple rfl
    exact htuple (Value.rereadItems tuple) (by rw [Value.reread])
  | tupleItem htuple hmem =>
    rw [Value.find?_rereadMembers, Option.map_eq_some_iff] at htuple
    obtain ⟨v, htuple, hv⟩ := htuple
    cases v with
    | array items =>
      rw [Value.reread, Value.array.injEq, Value.rereadItems_eq_map] at hv
      rw [← hv, List.mem_map] at hmem
      obtain ⟨old, hold, rfl⟩ := hmem
      exact ⟨old, .tupleItem htuple hold, rfl⟩
    | _ => simp [Value.reread] at hv

theorem Finished.reread (h : Finished node) : Finished (Value.rereadMembers node) where
  noReference := by rw [Value.find?_rereadMembers, h.noReference, Option.map_none]
  declared := by
    obtain ⟨decl, hmembers, htype, hallowed⟩ := h.declared
    refine ⟨decl, hmembers, ?_, ?_, ?_, ?_⟩
    · have hname : decl.toValue.reread = decl.toValue := by
        cases decl <;> simp [TypeDecl.toValue, Value.reread, Value.rereadItems_eq_map]
      rw [Value.find?_rereadMembers, htype, Option.map_some, hname]
    · rw [Value.keys_rereadMembers]
      exact hallowed.keys
    · intro v hv
      rw [Value.find?_rereadMembers, Option.map_eq_some_iff] at hv
      obtain ⟨old, hold, rfl⟩ := hv
      obtain ⟨children, rfl⟩ := hallowed.properties old hold
      exact ⟨_, by rw [Value.reread]⟩
    · intro v hv
      rw [Value.find?_rereadMembers, Option.map_eq_some_iff] at hv
      obtain ⟨old, hold, rfl⟩ := hv
      rcases hallowed.items old hold with ⟨item, rfl⟩ | ⟨tuple, rfl⟩
      · exact Or.inl ⟨_, by rw [Value.reread]⟩
      · exact Or.inr ⟨_, by rw [Value.reread]⟩

theorem BuiltGrammar.reread (h : BuiltGrammar v) : BuiltGrammar v.reread := by
  induction v using nodeInduction with
  | leaf v hleaf =>
    obtain ⟨node, hnode, -⟩ := h v (.root v)
    exact absurd hnode (hleaf node)
  | node node ih =>
    obtain ⟨hfinished, hparts⟩ := builtGrammar_object_iff.mp h
    rw [Value.reread]
    refine builtGrammar_object_iff.mpr ⟨hfinished.reread, fun w hw => ?_⟩
    obtain ⟨old, hold, rfl⟩ := hw.of_reread
    exact ih old hold (hparts old hold)

/-- No check against a tree of the grammar falls through. -/
theorem BuiltGrammar.walksThrough (h : BuiltGrammar v) (policy : Policy) :
    WalksThrough policy v := by
  refine Validation.walksThrough_of_declared fun w hw => ?_
  obtain ⟨node, rfl, hfinished⟩ := h w hw
  obtain ⟨decl, hmembers, htype, -⟩ := hfinished.declared
  refine ⟨node, rfl, ?_⟩
  rw [Validation.Schema.declaration?_eq_some.mpr ⟨hmembers, htype⟩]
  simp

end Node

namespace Registry

variable {σ : Type} {r : Registry σ} {s t : σ}

/-! ## Trees and texts -/

theorem reads_parent_uncached (huncached : r.usesCache = false) (levels : Nat)
    (chain : List String) (directory reference : String) :
    Reads s Resolved (r.parent (r.fetch r.usesCache levels) chain directory reference) := by
  rw [huncached]
  exact reads_parent (reads_fetch levels chain _)

theorem ends_buildTree_ok {levels : Nat} {directory : String} {d built : Value} :
    Ends (r.buildTree levels directory d) s (.ok built) t ↔
      ∃ node members, d = .object node ∧ built = .object members ∧
        Ends (Building.buildNode (r.parent (r.fetch r.usesCache levels) [] directory) levels []
          node) s (.ok members) t := by
  cases d with
  | object node =>
    rw [buildTree, Build.ends_bind_ok]
    simp only [Build.ends_pure, Except.ok.injEq]
    constructor
    · rintro ⟨members, u, hends, rfl, rfl⟩
      exact ⟨node, members, rfl, rfl, hends⟩
    · rintro ⟨found, members, heq, rfl, hends⟩
      rw [Value.object.injEq] at heq
      exact ⟨members, t, heq ▸ hends, rfl, rfl⟩
  | _ => simp [buildTree]

theorem builtGrammar_of_buildTree (huncached : r.usesCache = false) {levels : Nat}
    {directory : String} {d built : Value} (hd : d.Unique)
    (h : Ends (r.buildTree levels directory d) s (.ok built) t) : Node.BuiltGrammar built := by
  obtain ⟨node, members, rfl, rfl, hends⟩ := ends_buildTree_ok.mp h
  exact Building.builtGrammar_of_ok hd
    (fun reference => reads_parent_uncached huncached levels [] directory reference) hends

theorem builtGrammar_of_fetch {levels : Nat} {chain : List String} {name text : String}
    (h : Ends (r.fetch false levels chain name) s (.ok text) t) :
    ∃ built, Resolved built ∧ Node.BuiltGrammar (.object built) ∧ text = builtText built := by
  cases levels with
  | zero => exact absurd h Build.not_ends_unfinished
  | succ levels =>
    obtain ⟨document, hdocument, built, hbuilt, rfl⟩ := ends_fetch_uncached_ok.mp h
    have hunique := unique_of_document? hdocument
    have hparent := reads_parents (r := r) (s := s) levels chain (Name.normalize name)
    obtain ⟨-, hresolved⟩ := Building.reads_buildNode hunique hparent _ _ hbuilt
    exact ⟨built, hresolved built rfl, Building.builtGrammar_of_ok hunique hparent hbuilt, rfl⟩

/-- Whatever a registry builds without a cache, a tree or the text of a document, has at every node
position a node without references and with a type that allows its keys; and no check against it
comes to a node without a recognised type. -/
theorem built_in_grammar (r : Registry σ) (s : σ) :
    (r.caching = false → ∀ (levels : Nat) (directory : String) (d built : Value) (t : σ), d.Unique →
      Ends (r.buildTree levels directory d) s (.ok built) t →
        Node.BuiltGrammar built ∧ ∀ policy, WalksThrough policy built) ∧
    ∀ (levels : Nat) (name text : String) (t : σ),
      Ends (r.getSchemaUncached levels name) s (.ok text) t →
        (∃ built, text = builtText built ∧ Node.BuiltGrammar (.object built)) ∧
        ∀ schema, Value.read text = .ok schema →
          Node.BuiltGrammar schema ∧ ∀ policy, WalksThrough policy schema := by
  constructor
  · intro hcaching levels directory d built t hd h
    have hbuilt := builtGrammar_of_buildTree (by simp [usesCache, hcaching]) hd h
    exact ⟨hbuilt, hbuilt.walksThrough⟩
  · intro levels name text t h
    obtain ⟨built, hresolved, hbuilt, rfl⟩ := builtGrammar_of_fetch h
    refine ⟨⟨built, rfl, hbuilt⟩, fun schema hread => ?_⟩
    have hnesting : Value.nesting (.object built) ≤ depthLimit := by
      by_contra hdeep
      obtain ⟨fault, hfault⟩ := Value.read_compact_of_deep (Nat.lt_of_not_le hdeep)
      rw [builtText, hfault] at hread
      simp at hread
    rw [builtText, Value.read_compact hresolved.unique hnesting, Except.ok.injEq] at hread
    exact hread ▸ ⟨hbuilt.reread, hbuilt.reread.walksThrough⟩

/-- A parent with a property that its heirs may narrow. -/
def narrowed : Registry Unit :=
  .ofTexts [("p", "\x7b\"type\":\"object\",\"properties\":\x7b\"x\":\x7b\"pattern\":\"a\"" ++
    ",\"type\":\"string\"\x7d\x7d\x7d")]

/-- An heir that declares the property once more. -/
def narrowing : Value :=
  .object [("extends", .string "p"),
    ("properties", .object [("x", .object [("type", .array [.string "string", .string "null"])])])]

/-- The heir, built. -/
def narrow : Value :=
  .object [("properties", .object [("x",
      .object [("type", .array [.string "string", .string "null"]), ("pattern", .string "a")])]),
    ("type", .string "object")]

/-- The parent, read back from its built text. -/
def wide : Value :=
  .object [("type", .string "object"),
    ("properties", .object [("x", .object [("pattern", .string "a"), ("type", .string "string")])])]

theorem ends_narrowing : Ends (narrowed.buildTree 4 "" narrowing) () (.ok narrow) () := by
  unfold Ends
  decide +kernel

theorem ends_wide :
    Ends (narrowed.getSchemaUncached 4 "p") () (.ok wide.compact) () := by
  unfold Ends
  decide +kernel

theorem unique_narrowing : narrowing.Unique := by
  have hmerged : narrowing.mergeDuplicates = narrowing := by decide
  exact hmerged ▸ Value.unique_mergeDuplicates narrowing

theorem narrow_in_grammar :
    narrowed.caching = false ∧ narrowing.Unique ∧
      Ends (narrowed.buildTree 4 "" narrowing) () (.ok narrow) () ∧
      Ends (narrowed.getSchemaUncached 4 "p") () (.ok wide.compact) () ∧
      Value.read wide.compact = .ok wide ∧ Node.BuiltGrammar narrow ∧ Node.BuiltGrammar wide := by
  have hread : Value.read wide.compact = .ok wide := by decide +kernel
  obtain ⟨htrees, htexts⟩ := built_in_grammar narrowed ()
  have hnarrow := htrees rfl 4 "" narrowing narrow () unique_narrowing ends_narrowing
  have hwide := (htexts 4 "p" wide.compact () ends_wide).2 wide hread
  exact ⟨rfl, unique_narrowing, ends_narrowing, ends_wide, hread, hnarrow.1, hwide.1⟩

end Registry
end Schemata
