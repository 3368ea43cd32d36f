import Schemata.Proofs.Registry.Session
import Schemata.Validation.Validator

/-!
# Reading built texts back

The trees of parents are merged in below the root, so a built tree can be nested deeper than every
document.  A built text is read again in four places: as a value, as an entry of the cache, as a
parent, and as the schema of a validation.  All of them accept it exactly when the built tree is
not nested deeper than a document may be.
-/

namespace Schemata

namespace SchemaError

/-- The error, or one inside it, says that the text of a name cannot be parsed. -/
def FindsUnparsable (name : String) (e : SchemaError) : Prop :=
  ∃ fault, .unparsable name fault ∈ e :: e.sources

variable {name other : String} {e : SchemaError}

theorem FindsUnparsable.of_through (h : (e.through other).FindsUnparsable name) :
    e.FindsUnparsable name := by
  obtain ⟨fault, hmem⟩ := h
  refine ⟨fault, ?_⟩
  cases e with
  | cyclicExtend chain => exact hmem
  | _ =>
    rcases List.mem_cons.mp hmem with heq | hbelow
    · simp [through] at heq
    · exact hbelow

theorem BlamesNode.not_findsUnparsable (h : e.BlamesNode) : ¬ e.FindsUnparsable name := by
  rintro ⟨fault, hmem⟩
  rw [h.sources_eq_nil, List.mem_singleton] at hmem
  subst hmem
  exact h

end SchemaError

open Build (Ends Reads)
open Json (Members Value depthLimit)
open Registry

/-- A node is not built if the parent that it names first cannot be had. -/
theorem Building.ends_buildNode_of_first {σ : Type} {s t : σ} {parent : String → Build σ Members}
    {levels : Nat} {location : Pointer} {node : Members} {v : Value} {reference : String}
    {rest : List String} {e : SchemaError} (hu : Value.Unique (.object node))
    (hextends : Members.find? "extends" node = some v)
    (hnames : references location v = .ok (reference :: rest))
    (h : Ends (parent reference) s (.error e) t) :
    Ends (buildNode parent (levels + 1) location node) s (.error e) t := by
  have hfind : Members.find? "extends" (dropNullType node) = some v :=
    (find?_dropNullType hu.keys (by decide)).trans hextends
  have hall : Ends (inheritAll parent (reference :: rest)
      (Members.swapErase "extends" (dropNullType node))) s (.error e) t :=
    Build.ends_bind.mpr (Or.inr ⟨e, h, rfl⟩)
  have hmerged : Ends (inheritParents parent location (dropNullType node)) s (.error e) t := by
    unfold inheritParents
    rw [hfind]
    exact Build.ends_bind.mpr
      (Or.inl ⟨_, s, Build.ends_ofExcept.mpr ⟨hnames.symm, rfl⟩, hall⟩)
  have hprepared : Ends (prepare parent location node) s (.error e) t :=
    Build.ends_bind.mpr (Or.inr ⟨e, hmerged, rfl⟩)
  exact Build.ends_bind.mpr (Or.inr ⟨e, hprepared, rfl⟩)

theorem Building.ends_prepare_of_typed {σ : Type} {s : σ} {parent : String → Build σ Members}
    {location : Pointer} {node : Members} {v : Value} {decl : TypeDecl}
    (hextends : Members.find? "extends" node = none) (htype : Members.find? "type" node = some v)
    (hv : v ≠ .null) (hdecl : declaration location node = .ok decl)
    (hkeys : checkKeys location decl node = .ok ()) :
    Ends (prepare parent location node) s (.ok node) s := by
  have hmerged : Ends (inheritParents parent location (dropNullType node)) s (.ok node) s := by
    rw [dropNullType_of_find? htype hv, inheritParents_of_none hextends]
    exact Build.ends_pure.mpr ⟨rfl, rfl⟩
  have htyped : Members.addMissing node "type" (.string SchemaType.default.name) = node := by
    have hhas : Members.has "type" node = true := by rw [Members.has, htype]; rfl
    unfold Members.addMissing
    rw [if_pos hhas]
  exact ends_prepare_of_merged hmerged htyped hdecl hkeys

theorem Registry.ends_getSchemaValue {σ : Type} {r : Registry σ} {s t : σ} {levels : Nat}
    {name text : String} (h : Ends (r.getSchema levels name) s (.ok text) t) :
    Ends (r.getSchemaValue levels name) s
      ((parseDocument (Name.normalize name) text).map .object) t := by
  refine Build.ends_bind.mpr (Or.inl ⟨text, t, h, ?_⟩)
  cases hparse : parseDocument (Name.normalize name) text with
  | ok members =>
    exact Build.ends_bind.mpr (Or.inl ⟨members, t, Build.ends_ofExcept.mpr ⟨rfl, rfl⟩,
      Build.ends_pure.mpr ⟨rfl, rfl⟩⟩)
  | error e => exact Build.ends_bind.mpr (Or.inr ⟨e, Build.ends_ofExcept.mpr ⟨rfl, rfl⟩, rfl⟩)

namespace Session

variable {session : Session} {caching : Bool} {m m' : MemoryStore} {levels : Nat}
  {chain : List String} {name text : String}

/-! ## The cache -/

/-- The text of the entry is JSON. -/
def Readable (entry : String × ByteArray) : Prop :=
  ∃ text v, entry.2 = text.toUTF8 ∧ Value.read text = .ok v

section Caching

variable {InUse : String → Prop}
  (hapart : ∀ name other, InUse name → InUse other → cacheKey name = cacheKey other → name = other)
  (hclosed : ∀ name other, InUse name → session.plain.Refers () name other → InUse other)

include hapart in
/-- A readable cache has no entry for a name, or its text. -/
theorem entryText_of_readable (hsound : (session.sound InUse).Holds m)
    (hreadable : ∀ entry ∈ m.entries, Readable entry) (hname : InUse name)
    (hanswers : session.Uncached name (.ok text)) :
    (m.find? (cacheKey name) = none ∧ entryText m name = .ok none) ∨
      m.find? (cacheKey name) = some text.toUTF8 ∧ entryText m name = .ok (some text) := by
  cases hfind : m.find? (cacheKey name) with
  | none =>
    refine Or.inl ⟨rfl, ?_⟩
    unfold entryText
    rw [hfind]
  | some bytes =>
    obtain ⟨kept, hkept, rfl⟩ := uncached_of_find? hapart hsound hname hfind
    obtain rfl : kept = text := Except.ok.inj (hkept.unique hanswers)
    obtain ⟨read, v, hbytes, hread⟩ := hreadable _ (MemoryStore.mem_of_find? hfind)
    have hsame : read = kept := by
      have hdecode : Utf8.decode read.toUTF8 = Utf8.decode kept.toUTF8 := congrArg _ hbytes.symm
      rw [Utf8.decode_toUTF8, Utf8.decode_toUTF8] at hdecode
      exact Except.ok.inj hdecode
    subst hsame
    refine Or.inr ⟨rfl, ?_⟩
    rw [entryText_of_find? hfind, hread]

/-- A parent that is answered without a cache is answered through it, and leaves it readable: its
text was read, so the entry that is kept for it can be. -/
theorem cachedParents_of_uncached {reference : String} {members : Members}
    (hfetch : ∀ parentText, Ends (session.plain.fetch false levels (chain ++ [name])
      (session.plain.target (Name.directory name) reference)) () (.ok parentText) () →
        ∃ m', Ends ((session.registry caching).fetch true levels (chain ++ [name])
          (session.plain.target (Name.directory name) reference)) m (.ok parentText) m' ∧
            (session.sound InUse).Holds m' ∧ ∀ entry ∈ m'.entries,
              entry = (cacheKey (session.plain.target (Name.directory name) reference),
                parentText.toUTF8) ∨ Readable entry)
    (h : Ends (session.plain.parents levels chain name reference) () (.ok members) ()) :
    ∃ m', ((session.sound InUse).Holds m' ∧ ∀ entry ∈ m'.entries, Readable entry) ∧
      Ends (session.cachedParents caching levels chain name reference) m (.ok members) m' := by
  obtain ⟨hmem, parentText, hplain, hparse⟩ := ends_parent_ok.mp h
  obtain ⟨m', hends, hsound, hentries⟩ := hfetch parentText hplain
  refine ⟨m', ⟨hsound, fun entry hentry => ?_⟩,
    ends_parent_ok.mpr ⟨hmem, parentText, hends, hparse⟩⟩
  rcases hentries entry hentry with rfl | hold
  · exact ⟨parentText, _, rfl, parseDocument_eq_ok.mp hparse⟩
  · exact hold

include hapart hclosed in
/-- What is answered without a cache is answered through a sound and readable cache, and kept.
Only the text itself may turn out not to be readable. -/
theorem fetch_cached_of_uncached (hnormal : Name.normalize name = name) (hname : InUse name)
    (hchain : ∀ other ∈ chain, session.plain.Reaches () other name)
    (h : Ends (session.plain.fetch false levels chain name) () (.ok text) ())
    (hsound : (session.sound InUse).Holds m) (hreadable : ∀ entry ∈ m.entries, Readable entry) :
    ∃ m', Ends ((session.registry caching).fetch true levels chain name) m (.ok text) m' ∧
      (session.sound InUse).Holds m' ∧ m'.find? (cacheKey name) = some text.toUTF8 ∧
        ∀ entry ∈ m'.entries, entry = (cacheKey name, text.toUTF8) ∨ Readable entry := by
  induction levels generalizing chain name text m with
  | zero => exact absurd h Build.not_ends_unfinished
  | succ levels ih =>
    have hanswers : session.plain.Answers () chain name (.ok text) := answers_of_ends ⟨rfl, rfl⟩ h
    have huncached : session.Uncached name (.ok text) := hanswers.ok_of_chain hnormal (by simp)
    rcases entryText_of_readable hapart hsound hreadable hname huncached with
      ⟨hfind, hentry⟩ | ⟨hfind, hentry⟩
    · obtain ⟨document, hdocument, built, hbuilt, rfl⟩ := ends_fetch_uncached_ok.mp h
      rw [hnormal] at hdocument hbuilt
      have hnode : (Simulation.succeeding () fun m => (session.sound InUse).Holds m ∧
          ∀ entry ∈ m.entries, Readable entry).Relates Resolved
            (Building.buildNode (session.plain.parents levels chain name) levels [] document)
            fun _ => Building.buildNode (session.cachedParents caching levels chain name) levels []
              document := by
        refine Simulation.buildNode _ (Nat.le_refl levels) (unique_of_document? hdocument) ?_
        intro reference hmentions members s' hparent
        have hresolved := (reads_parents levels chain name reference _ _ hparent).2 members rfl
        refine ⟨rfl, hresolved, ?_⟩
        rintro before ⟨hbefore, hreadable'⟩
        have hrefers : session.plain.Refers () name
            (session.plain.target (Name.directory name) reference) :=
          ⟨document, hdocument, reference, hmentions, rfl⟩
        refine cachedParents_of_uncached (fun parentText hplain => ?_) hparent
        obtain ⟨after, hends, hafter, -, hentries⟩ := ih normalize_target
          (hclosed _ _ hname hrefers) (forall_reaches_of_refers hchain hrefers) hplain hbefore
            hreadable'
        exact ⟨after, hends, hafter, hentries⟩
      obtain ⟨-, -, hright⟩ := hnode built () hbuilt
      obtain ⟨after, ⟨hafter, hreadable'⟩, hends⟩ := hright m ⟨hsound, hreadable⟩
      refine ⟨after.insert (cacheKey name) (builtText built).toUTF8, ?_, ?_,
        MemoryStore.find?_insert, ?_⟩
      · exact (ends_fetch_cached hnormal).mpr (Or.inr (Or.inr ⟨hentry,
          Or.inr ⟨document, hdocument, ends_keptText_ok hafter.1 hends⟩⟩))
      · exact (sound_insert hapart hafter hname hnormal huncached).1
      · exact fun entry hmem => (MemoryStore.mem_insert hmem).symm.imp_right (hreadable' entry)
    · exact ⟨m, (ends_fetch_cached hnormal).mpr (Or.inr (Or.inl ⟨text, hentry, rfl, rfl⟩)), hsound,
        hfind, fun entry hmem => Or.inr (hreadable entry hmem)⟩

end Caching

/-! ## Parents -/

section Parents

variable {members : Members} (hnormal : Name.normalize name = name)
  (huncached : session.Uncached name (.ok text)) (hparse : parseDocument name text = .ok members)

include hnormal huncached hparse in
theorem parent_not_findsUnparsable {directory reference : String} {e : SchemaError}
    (hfetch : ∀ other e, Ends (session.plain.fetch false levels chain other) () (.error e) () →
      ¬ e.FindsUnparsable name)
    (h : Ends (session.plain.parent (session.plain.fetch false levels) chain directory reference) ()
      (.error e) ()) : ¬ e.FindsUnparsable name := by
  rcases ends_parent.mp h with ⟨-, he, -⟩ | ⟨-, ⟨found, hfound, he⟩ | ⟨inner, hinner, he⟩⟩
  · rw [Except.error.injEq] at he
    rw [he]
    rintro ⟨fault, hmem⟩
    simp [SchemaError.sources] at hmem
  · obtain ⟨inner, hread, rfl⟩ := mapError_eq_error.mp he.symm
    obtain ⟨fault, rfl⟩ := exists_fault_of_parseDocument hread
    intro hfinds
    obtain ⟨fault', hmem⟩ := hfinds.of_through
    have heq : session.plain.target directory reference = name := by
      simp only [SchemaError.sources, List.mem_singleton, SchemaError.unparsable.injEq] at hmem
      exact hmem.1.symm
    rw [heq] at hfound hread
    have hanswers : session.Uncached name (.ok found) :=
      (answers_of_ends ⟨rfl, rfl⟩ hfound).ok_of_chain hnormal (by simp)
    obtain rfl : found = text := Except.ok.inj (hanswers.unique huncached)
    simp [hparse] at hread
  · rw [Except.error.injEq] at he
    rw [he]
    exact fun hfinds => hfetch _ inner hinner hfinds.of_through

include hnormal huncached hparse in
/-- A name whose text can be parsed is never found unparsable. -/
theorem fetch_not_findsUnparsable {other : String} {e : SchemaError}
    (h : Ends (session.plain.fetch false levels chain other) () (.error e) ()) :
    ¬ e.FindsUnparsable name := by
  induction levels generalizing chain other e with
  | zero => exact absurd h Build.not_ends_unfinished
  | succ levels ih =>
    rcases ends_fetch_uncached.mp h with ⟨inner, hloaded, he, -⟩ | ⟨document, hdocument, hbuild⟩
    · obtain rfl := Except.error.inj he
      rintro ⟨fault, hmem⟩
      obtain ⟨stored, hstored, -⟩ := huncached.step
      obtain ⟨storedText, hok⟩ := document?_eq_some.mp hstored
      rcases loaded_error_cases hloaded with ⟨source, rfl⟩ | rfl | ⟨fault', rfl⟩
      · simp [SchemaError.sources] at hmem
      · simp [SchemaError.sources] at hmem
      · simp only [SchemaError.sources, List.mem_singleton, SchemaError.unparsable.injEq] at hmem
        rw [← hmem.1, ← hnormal, hok] at hloaded
        simp at hloaded
    · obtain ⟨-, -, herror⟩ := outcome_buildDocument (unique_of_document? hdocument)
        (fun reference _ => reads_parents levels chain _ reference) hbuild
      rcases herror e rfl with hblames | ⟨reference, -, hparent⟩
      · exact hblames.not_findsUnparsable
      · exact parent_not_findsUnparsable hnormal huncached hparse (fun _ _ => ih) hparent

end Parents

/-! ## All readers -/

/-- Every reader accepts the text of the name, the cache as far as keys tell names apart. -/
structure ReadsBack (session : Session) (name text : String) : Prop where
  value : ∃ v, Eventually fun levels =>
    Ends (session.plain.getSchemaValue levels name) () (.ok v) ()
  again : session.KeysApart [.getSchema name] → Eventually fun levels => ∃ m,
    Ends ((session.registry true).getSchema levels name) MemoryStore.empty (.ok text) m ∧
      Ends ((session.registry true).getSchema levels name) m (.ok text) m
  inherited : ∀ levels other e,
    Ends (session.plain.getSchemaUncached levels other) () (.error e) () →
      ¬ e.FindsUnparsable (Name.normalize name)
  inline : ∀ levels document directory members e, parseDocument inlineName document = .ok members →
    Ends (session.plain.buildText levels document directory) () (.error e) () →
      ¬ e.FindsUnparsable (Name.normalize name)
  validated : ∀ {μ : Type} (v : Validation.Validator μ) (instanceText : String),
    ∃ report, (v.validate instanceText text).1 = .ok report

/-- Every reader refuses the text of the name, the cache as far as keys tell names apart. -/
structure Unreadable (session : Session) (name text : String) : Prop where
  value : ∃ fault, Eventually fun levels => Ends (session.plain.getSchemaValue levels name) ()
    (.error (.unparsable (Name.normalize name) fault)) ()
  again : session.KeysApart [.getSchema name] → Eventually fun levels => ∃ m,
    Ends ((session.registry true).getSchema levels name) MemoryStore.empty (.ok text) m ∧
      Ends ((session.registry true).getSchema levels name) m
        (.error (.brokenCache (Name.normalize name) (cacheKey (Name.normalize name)))) m
  inherited : ∀ document directory members v reference rest,
    parseDocument inlineName document = .ok members → Members.find? "extends" members = some v →
      Building.references [] v = .ok (reference :: rest) →
        session.plain.target directory reference = Name.normalize name →
          ∃ fault, Eventually fun levels =>
            Ends (session.plain.buildText levels document directory) () (.error
              (.brokenExtend (Name.normalize name) (.unparsable (Name.normalize name) fault))) ()
  validated : ∀ {μ : Type} (v : Validation.Validator μ) (instanceText : String),
    ∃ fault, (v.validate instanceText text).1 = .error (.unparsable inlineName fault)

section Readers

variable (huncached : session.Uncached name (.ok text))

include huncached in
/-- The first call through an empty cache answers the text and keeps it. -/
theorem eventually_kept (hapart : session.KeysApart [.getSchema name]) :
    Eventually fun levels => ∃ m,
      Ends ((session.registry true).getSchema levels name) MemoryStore.empty (.ok text) m ∧
        m.find? (cacheKey (Name.normalize name)) = some text.toUTF8 := by
  refine Eventually.imp huncached fun levels hends => ?_
  rw [← fetch_normalize] at hends
  have hsound : (session.sound (session.InUse [.getSchema name])).Holds MemoryStore.empty :=
    ⟨rfl, by simp [MemoryStore.empty]⟩
  have hname : session.InUse [.getSchema name] (Name.normalize name) :=
    .named (List.mem_singleton_self _) rfl
  obtain ⟨m, hfetch, -, hfind, -⟩ := @fetch_cached_of_uncached session true _ _ _ _ _ _ hapart
    (fun _ _ => InUse.referred) (Name.normalize_normalize name) hname (by simp) hends hsound
      (by simp [MemoryStore.empty])
  rw [fetch_normalize] at hfetch
  exact ⟨m, hfetch, hfind⟩

/-- The second call answers what the entry holds. -/
theorem ends_getSchema_of_entryText {found : Except SchemaError String} (hlevels : 1 ≤ levels)
    (hentry : entryText m (Name.normalize name) = found.map some) :
    Ends ((session.registry true).getSchema levels name) m found m := by
  obtain ⟨more, rfl⟩ : ∃ more, levels = more + 1 := ⟨levels - 1, by omega⟩
  have hfetch : Ends ((session.registry true).fetch true (more + 1) [] (Name.normalize name)) m
      found m := by
    rw [ends_fetch_cached (Name.normalize_normalize name)]
    cases found with
    | ok text => exact Or.inr (Or.inl ⟨text, hentry, rfl, rfl⟩)
    | error e => exact Or.inl ⟨e, hentry, rfl, rfl⟩
  rw [fetch_normalize] at hfetch
  exact hfetch

include huncached in
theorem readsBack_of_parse {members : Members}
    (hparse : ∀ owner, parseDocument owner text = .ok members) : session.ReadsBack name text where
  value := by
    refine ⟨.object members, huncached.imp fun levels hends => ?_⟩
    have hvalue := ends_getSchemaValue hends
    rwa [hparse] at hvalue
  again := by
    intro hapart
    refine ((eventually_kept huncached hapart).and ⟨1, fun _ => id⟩).imp ?_
    rintro levels ⟨⟨m, hends, hfind⟩, hlevels⟩
    refine ⟨m, hends, ends_getSchema_of_entryText hlevels ?_⟩
    rw [entryText_of_find? hfind, parseDocument_eq_ok.mp (hparse name)]
    rfl
  inherited := by
    intro levels other e h
    exact fetch_not_findsUnparsable (Name.normalize_normalize name)
      (answers_normalize_iff.mpr huncached) (hparse _) h
  inline := by
    intro levels document directory inlineMembers e hinline h
    rcases ends_buildText.mp h with ⟨e', he', -, -⟩ | ⟨document', hdocument', hbuild⟩
    · simp [hinline] at he'
    · obtain ⟨-, -, herror⟩ := outcome_buildDocument (unique_of_parseDocument hdocument')
        (fun reference _ => reads_parent (reads_fetch levels _ _)) hbuild
      rcases herror e rfl with hblames | ⟨reference, -, hparent⟩
      · exact hblames.not_findsUnparsable
      · refine parent_not_findsUnparsable (Name.normalize_normalize name)
          (answers_normalize_iff.mpr huncached) (hparse _) ?_ hparent
        exact fun other e => fetch_not_findsUnparsable (Name.normalize_normalize name)
          (answers_normalize_iff.mpr huncached) (hparse _)
  validated := by
    intro μ v instanceText
    unfold Validation.Validator.validate
    rw [hparse]
    cases Value.read instanceText with
    | error fault => exact ⟨_, rfl⟩
    | ok value => exact ⟨_, rfl⟩

include huncached in
theorem unreadable_of_fault {fault : Json.Fault} (hread : Value.read text = .error fault) :
    session.Unreadable name text where
  value := by
    refine ⟨.json fault, huncached.imp fun levels hends => ?_⟩
    have hvalue := ends_getSchemaValue hends
    rwa [parseDocument_of_fault hread] at hvalue
  again := by
    intro hapart
    refine ((eventually_kept huncached hapart).and ⟨1, fun _ => id⟩).imp ?_
    rintro levels ⟨⟨m, hends, hfind⟩, hlevels⟩
    refine ⟨m, hends, ends_getSchema_of_entryText hlevels ?_⟩
    rw [entryText_of_find? hfind, hread]
    rfl
  inherited := by
    intro document directory members v reference rest hparse hextends hnames htarget
    refine ⟨.json fault, ?_⟩
    have hanswers : session.plain.Answers () [] (Name.normalize name) (.ok text) :=
      answers_normalize_iff.mpr huncached
    refine (Eventually.and hanswers ⟨1, fun _ => id⟩).imp ?_
    rintro levels ⟨hends, hlevels⟩
    obtain ⟨more, rfl⟩ : ∃ more, levels = more + 1 := ⟨levels - 1, by omega⟩
    refine ends_buildText.mpr (Or.inr ⟨members, hparse, Build.ends_map.mpr (Or.inr ⟨_, ?_, rfl⟩)⟩)
    refine Building.ends_buildNode_of_first (unique_of_parseDocument hparse) hextends hnames ?_
    have hparent := ends_parent_of_fetch (by simp) (htarget ▸ hends)
    rwa [htarget, parentOutcome, parseDocument_of_fault hread] at hparent
  validated := by
    intro μ v instanceText
    refine ⟨.json fault, ?_⟩
    unfold Validation.Validator.validate
    rw [parseDocument_of_fault hread]

end Readers

/-- A built text is read back by all readers if the tree is not nested too deeply, and otherwise
by none. -/
theorem readsBack_or_unreadable (huncached : session.Uncached name (.ok text)) :
    ∃ built, Value.Unique (.object built) ∧ text = builtText built ∧
      (Value.nesting (.object built) ≤ depthLimit → session.ReadsBack name text) ∧
      (depthLimit < Value.nesting (.object built) → session.Unreadable name text) := by
  obtain ⟨built, hbuilt, rfl⟩ := huncached.builtText
  refine ⟨built, hbuilt.unique, rfl, fun hnesting => ?_, fun hdeep => ?_⟩
  · exact readsBack_of_parse huncached fun owner =>
      parseDocument_compact hbuilt.unique hnesting
  · obtain ⟨fault, hfault⟩ := Value.read_compact_of_deep hdeep
    exact unreadable_of_fault huncached hfault

/-! ## Towers -/

/-- A node below so many arrays. -/
def tower (leaf : Members) : Nat → Members
  | 0 => leaf
  | n + 1 => [("type", .string "array"), ("items", .object (tower leaf n))]

section Tower

variable {leaf : Members} {n : Nat}

theorem nesting_tower :
    Value.nesting (.object (tower leaf n)) = Value.nesting (.object leaf) + n := by
  induction n with
  | zero => rfl
  | succ n ih =>
    rw [tower, Value.nesting, Value.nestingMembers, Value.nestingMembers, ih]
    simp [Value.nesting, Value.nestingMembers]
    omega

theorem unique_tower (h : Value.Unique (.object leaf)) : Value.Unique (.object (tower leaf n)) := by
  induction n with
  | zero => exact h
  | succ n ih =>
    refine Value.unique_object_iff.mpr ⟨by simp [tower, Members.UniqueKeys, Members.keys], ?_⟩
    intro entry hentry
    rcases List.mem_cons.mp hentry with rfl | hrest
    · exact Value.unique_of_ne_container (by simp) (by simp)
    · rw [List.mem_singleton.mp hrest]
      exact ih

theorem rereadMembers_tower :
    Value.rereadMembers (tower leaf n) = tower (Value.rereadMembers leaf) n := by
  induction n with
  | zero => rfl
  | succ n ih =>
    rw [tower, tower, ← ih]
    rfl

theorem child_tower {child : Members} (h : Node.Child (tower leaf (n + 1)) child) :
    child = tower leaf n := by
  cases h with
  | property hprops _ => simp [tower, Members.find?] at hprops
  | item hitem =>
    simp only [tower, Members.find?] at hitem
    simpa using hitem.symm
  | tupleItem htuple _ => simp [tower, Members.find?] at htuple

theorem mentions_tower {reference : String} (h : Node.Mentions (tower leaf n) reference) :
    Node.Mentions leaf reference := by
  induction n with
  | zero => exact h
  | succ n ih =>
    rcases Node.mentions_iff.mp h with hown | ⟨child, hchild, hbelow⟩
    · simp [tower, Node.ownReferences, Members.find?] at hown
    · exact ih (child_tower hchild ▸ hbelow)

theorem ends_buildNode_of_prepared {σ : Type} {s : σ} {parent : String → Build σ Members}
    {levels : Nat} {location : Pointer} {node built : Members}
    (hprepared : Ends (Building.prepare parent location node) s (.ok (tower leaf (n + 1))) s)
    (hbelow : ∀ place, Ends (Building.buildNode parent levels place (tower leaf n)) s
      (.ok (tower built n)) s) :
    Ends (Building.buildNode parent (levels + 1) location node) s
      (.ok (tower built (n + 1))) s := by
  refine Build.ends_bind_ok.mpr ⟨_, s, hprepared,
    Build.ends_bind_ok.mpr ⟨tower leaf (n + 1), s, ?_, ?_⟩⟩
  · exact Build.ends_pure.mpr ⟨rfl, rfl⟩
  · exact Build.ends_bind_ok.mpr ⟨_, s, hbelow _, Build.ends_pure.mpr ⟨rfl, rfl⟩⟩

/-- The arrays stay as they are. -/
theorem ends_buildNode_tower {σ : Type} {s : σ} {parent : String → Build σ Members} {levels : Nat}
    {built : Members} (h : ∀ place, Ends (Building.buildNode parent levels place leaf) s
      (.ok built) s) (location : Pointer) :
    Ends (Building.buildNode parent (levels + n) location (tower leaf n)) s
      (.ok (tower built n)) s := by
  induction n generalizing location with
  | zero => exact h location
  | succ n ih =>
    have hdecl : Building.declaration location (tower leaf (n + 1)) = .ok (.single .array) := by
      simp only [Building.declaration, tower, Members.find?]
      rfl
    have hkeys : Building.checkKeys location (.single .array) (tower leaf (n + 1)) = .ok () := by
      simp only [tower, Building.checkKeys]
      rfl
    have htype : Members.find? "type" (tower leaf (n + 1)) = some (.string "array") := by
      simp [tower, Members.find?]
    exact ends_buildNode_of_prepared (Building.ends_prepare_of_typed
      (by simp [tower, Members.find?]) htype (by simp) hdecl hkeys) ih

end Tower

/-- The first document extends the second one at its very bottom. -/
def deep : Session :=
  ⟨lookupText [("a", builtText (tower [("extends", .string "b")] 100)),
    ("b", builtText (tower [("type", .string "string")] 100))], relative⟩

theorem parseDocument_tower {leaf : Members} {n : Nat} (hu : Value.Unique (.object leaf))
    (hsame : Value.rereadMembers leaf = leaf)
    (hnesting : Value.nesting (.object leaf) + n ≤ depthLimit) :
    parseDocument name (builtText (tower leaf n)) = .ok (tower leaf n) := by
  rw [builtText, parseDocument_compact (unique_tower hu) (nesting_tower ▸ hnesting),
    rereadMembers_tower, hsame]

theorem document?_of_lookup {members : Members}
    (hlookup : session.documents name = .ok (some text.toUTF8))
    (hparse : parseDocument name text = .ok members) :
    session.plain.document? () name = some members := by
  have hdocument : session.plain.documents () name = .ok (some text.toUTF8) := hlookup
  refine document?_eq_some.mpr ⟨text, ?_⟩
  unfold loaded
  rw [hdocument]
  simp only [Utf8.decode_toUTF8, hparse]
  rfl

theorem unique_single {key value : String} : Value.Unique (.object [(key, .string value)]) := by
  refine Value.unique_object_iff.mpr ⟨List.nodup_singleton key, fun entry hentry => ?_⟩
  rw [List.mem_singleton.mp hentry]
  exact Value.unique_of_ne_container (by simp) (by simp)

theorem document?_deep_a :
    deep.plain.document? () "a" = some (tower [("extends", .string "b")] 100) :=
  document?_of_lookup rfl (parseDocument_tower unique_single rfl (by decide))

theorem document?_deep_b :
    deep.plain.document? () "b" = some (tower [("type", .string "string")] 100) :=
  document?_of_lookup rfl (parseDocument_tower unique_single rfl (by decide))

theorem deep_refers {name other : String} (hname : name = "a" ∨ name = "b")
    (h : deep.plain.Refers () name other) : other = "b" := by
  obtain ⟨document, hdocument, reference, hmentions, rfl⟩ := h
  rcases hname with rfl | rfl
  · rw [document?_deep_a, Option.some.injEq] at hdocument
    subst hdocument
    have hleaf := mentions_tower hmentions
    rw [Node.mentions_iff_of_leaf rfl rfl] at hleaf
    obtain rfl : reference = "b" := List.mem_singleton.mp hleaf
    decide
  · rw [document?_deep_b, Option.some.injEq] at hdocument
    subst hdocument
    have hleaf := mentions_tower hmentions
    rw [Node.mentions_iff_of_leaf rfl rfl] at hleaf
    exact absurd hleaf List.not_mem_nil

theorem keysApart_deep : deep.KeysApart [.getSchema "a"] :=
  keysApart_of_pair (by simp) fun _ _ => deep_refers

theorem ends_buildNode_string {σ : Type} {s : σ} {parent : String → Build σ Members}
    (place : Pointer) :
    Ends (Building.buildNode parent (levels + 1) place [("type", .string "string")]) s
      (.ok [("type", .string "string")]) s := by
  have hprepared : Ends (Building.prepare parent place [("type", .string "string")]) s
      (.ok [("type", .string "string")]) s :=
    Building.ends_prepare_of_typed rfl rfl (by simp) rfl rfl
  refine Build.ends_bind_ok.mpr ⟨_, s, hprepared,
    Build.ends_bind_ok.mpr ⟨[("type", .string "string")], s, ?_, ?_⟩⟩
  · exact Build.ends_pure.mpr ⟨rfl, rfl⟩
  · exact Build.ends_pure.mpr ⟨rfl, rfl⟩

theorem ends_parents_deep : Ends (deep.plain.parents 202 [] "a" "b") ()
    (.ok (tower [("type", .string "string")] 100)) () := by
  have htarget : deep.plain.target (Name.directory "a") "b" = "b" := by decide
  have hbuilt : Ends (Building.buildNode (deep.plain.parents 201 ["a"] "b") (101 + 100) []
      (tower [("type", .string "string")] 100)) ()
        (.ok (tower [("type", .string "string")] 100)) () :=
    ends_buildNode_tower ends_buildNode_string []
  have hnormal : Name.normalize "b" = "b" := by decide
  have hfetch := ends_fetch_of_built hnormal document?_deep_b hbuilt
  refine ends_parent_ok.mpr ⟨?_, _, htarget.symm ▸ hfetch, ?_⟩
  · rw [htarget]
    decide
  · exact parseDocument_tower unique_single rfl (by decide)

theorem uncached_deep :
    deep.Uncached "a" (.ok (builtText (tower (tower [("type", .string "string")] 100) 100))) := by
  have hprepared : ∀ place, Ends (Building.prepare (deep.plain.parents 202 [] "a") place
      [("extends", .string "b")]) () (.ok (tower [("type", .string "string")] (99 + 1))) () := by
    intro place
    have hmerged : Ends (Building.inheritParents (deep.plain.parents 202 [] "a") place
        [("extends", .string "b")]) () (.ok (tower [("type", .string "string")] (99 + 1))) () :=
      Build.ends_bind_ok.mpr ⟨["b"], (), Build.ends_ofExcept.mpr ⟨rfl, rfl⟩,
        Build.ends_bind_ok.mpr ⟨_, (), ends_parents_deep, Build.ends_pure.mpr ⟨rfl, rfl⟩⟩⟩
    exact @Building.ends_prepare_of_merged _ _ _ _ _ _ _ _ (.single .array) hmerged rfl rfl rfl
  have hleaf : ∀ place, Ends (Building.buildNode (deep.plain.parents 202 [] "a") 102 place
      [("extends", .string "b")]) () (.ok (tower [("type", .string "string")] 100)) () :=
    fun place => ends_buildNode_of_prepared (hprepared place)
      (@ends_buildNode_tower _ 99 _ _ _ 2 _ ends_buildNode_string)
  have hbuilt : Ends (Building.buildNode (deep.plain.parents 202 [] "a") (102 + 100) []
      (tower [("extends", .string "b")] 100)) ()
      (.ok (tower (tower [("type", .string "string")] 100) 100)) () :=
    ends_buildNode_tower hleaf []
  have hnormal : Name.normalize "a" = "a" := by decide +kernel
  exact answers_of_ends ⟨rfl, rfl⟩ (ends_fetch_of_built hnormal document?_deep_a hbuilt)

/-- A text that no reader accepts is built from two documents that all readers accept. -/
theorem deep_unreadable :
    ∃ text, deep.Uncached "a" (.ok text) ∧ deep.KeysApart [.getSchema "a"] ∧
      deep.Unreadable "a" text := by
  obtain ⟨built, hu, heq, -, hunreadable⟩ := readsBack_or_unreadable uncached_deep
  refine ⟨_, uncached_deep, keysApart_deep, hunreadable (Nat.lt_of_not_le fun hle => ?_)⟩
  have hdeep : depthLimit <
      Value.nesting (.object (tower (tower [("type", .string "string")] 100) 100)) := by
    rw [nesting_tower, nesting_tower]
    decide
  obtain ⟨fault, hfault⟩ := Value.read_compact_of_deep hdeep
  have hread : Value.read (Value.object built).compact = .error fault := by
    rw [← hfault]
    exact congrArg Value.read heq.symm
  rw [Value.read_compact hu hle] at hread
  simp at hread

end Session
end Schemata
