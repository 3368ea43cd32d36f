import Schemata.Command.Run
import Schemata.Proofs.Registry.Independence
import Schemata.Proofs.Registry.Readback

/-!
# Trouble with the cache

An entry that is no JSON is reported as a broken cache, which does not blame the documents.  But
nothing more is asked of an entry than to be JSON.  What is found under the name of a parent is then
parsed, merged and checked as if it were the parent's text, so an entry that reads differently
misleads the build, and the error blames the documents.

As long as no entry of an inherited name misleads, every parent is had as without the cache, and
only a broken entry can stop a build that ends well without it.
-/

namespace Schemata

open Build (Ends)
open Json (Members Value)
open Registry

/-- A broken cache is no fault of the documents. -/
theorem SchemaError.IsBrokenCache.not_invalidSchema {e : SchemaError} (h : e.IsBrokenCache) :
    e.isInvalidSchema = false := by
  induction e with
  | brokenExtend reference source ih => exact ih h
  | _ =>
    obtain ⟨name, key, he⟩ := h
    simp_all [SchemaError.innermost, SchemaError.isInvalidSchema]

namespace Session

variable {session : Session} {caching : Bool} {m m' : MemoryStore} {levels : Nat}
  {chain : List String} {root name other text : String}

/-! ## Misleading entries -/

/-- The entry of the name is JSON, but reads differently from the text that the name answers
without the cache. -/
def Misleads (session : Session) (m : MemoryStore) (name : String) : Prop :=
  ∃ entry text, entryText m name = .ok (some entry) ∧ session.Uncached name (.ok text) ∧
    Value.read entry ≠ Value.read text

/-- No entry of a name that the root inherits from misleads. -/
def unmisled (session : Session) (root : String) : StateInvariant MemoryStore where
  Holds m := m.readOnly = false ∧ ∀ name, session.plain.Reaches () root name →
    ¬ session.Misleads m name
  Later _ _ := True
  refl _ := trivial
  trans _ _ := trivial

theorem entryText_congr (h : m'.find? (cacheKey name) = m.find? (cacheKey name)) :
    entryText m' name = entryText m name := by
  unfold entryText
  rw [h]

theorem not_misleads_insert (huncached : session.Uncached name (.ok text)) :
    ¬ session.Misleads (m.insert (cacheKey name) text.toUTF8) name := by
  rintro ⟨entry, text', hentry, huncached', hne⟩
  obtain rfl : text' = text := Except.ok.inj (huncached'.unique huncached)
  rw [entryText_of_find? MemoryStore.find?_insert] at hentry
  cases hread : Value.read text' with
  | error fault => simp [hread] at hentry
  | ok v =>
    simp only [hread, Except.ok.injEq, Option.some.injEq] at hentry
    exact hne (congrArg Value.read hentry.symm)

/-! ## Fetching through entries that do not mislead -/

/-- The result is a text that reads like the one without the cache, or tells of a broken entry. -/
structure Faithful (session : Session) (name : String) (result : Except SchemaError String) :
    Prop where
  text : ∀ found, result = .ok found → ∃ text, session.Uncached name (.ok text) ∧
    Value.read found = Value.read text
  error : ∀ e, result = .error e → e.IsBrokenCache

section Led

variable {rootText : String} {result : Except SchemaError String} {document : Members}
  (huncached : session.Uncached root (.ok rootText)) (hroot : Name.normalize root = root)
  (hapart : ∀ name other, Relation.ReflTransGen (session.plain.Refers ()) root name →
    Relation.ReflTransGen (session.plain.Refers ()) root other → cacheKey name = cacheKey other →
      name = other)

include hapart in
theorem unmisled_insert (hm : (session.unmisled root).Holds m)
    (hname : Relation.ReflTransGen (session.plain.Refers ()) root name)
    (htext : session.Uncached name (.ok text)) :
    (session.unmisled root).Holds (m.insert (cacheKey name) text.toUTF8) := by
  constructor
  · exact hm.1
  · intro inherited hreach
    by_cases hkey : cacheKey inherited = cacheKey name
    · obtain rfl := hapart inherited name hreach.to_reflTransGen hname hkey
      exact not_misleads_insert htext
    · have hentry : entryText (m.insert (cacheKey name) text.toUTF8) inherited =
          entryText m inherited := entryText_congr (MemoryStore.find?_insert_of_ne hkey)
      unfold Misleads
      rw [hentry]
      exact hm.2 inherited hreach

include huncached hroot in
/-- A parent is had as without the cache. -/
theorem following_cachedParents {reference : String}
    (hname : Relation.ReflTransGen (session.plain.Refers ()) root name)
    (hchain : ∀ earlier ∈ chain, session.plain.Reaches () earlier name)
    (hrefers : session.plain.Refers () name
      (session.plain.target (Name.directory name) reference))
    (hfetch : ∀ m result m', (session.unmisled root).Holds m →
      Ends ((session.registry caching).fetch true levels (chain ++ [name])
        (session.plain.target (Name.directory name) reference)) m result m' →
        (session.unmisled root).Holds m' ∧
          session.Faithful (session.plain.target (Name.directory name) reference) result) :
    (Simulation.following (session.unmisled root) SchemaError.IsBrokenCache ()).Relates Resolved
      (session.cachedParents caching levels chain name reference)
      fun i => session.plain.parents i chain name reference := by
  have hreach : session.plain.Reaches () root
      (session.plain.target (Name.directory name) reference) := .tail' hname hrefers
  have hlonger := forall_reaches_of_refers hchain hrefers
  obtain ⟨parentText, members, hparent, hparse⟩ := huncached.parsed hroot hreach
  intro m hm result m' h
  rcases ends_parent.mp h with ⟨hmem, -, -⟩ | ⟨hmem, ⟨found, hfound, hresult⟩ | ⟨e, he, rfl⟩⟩
  · -- all names of the chain lead to the parent, which then would lead to itself
    exact absurd (hlonger _ hmem) (huncached.acyclic hroot hreach.to_reflTransGen)
  · obtain ⟨hm', hfaithful⟩ := hfetch m _ m' hm hfound
    obtain ⟨text, htext, hread⟩ := hfaithful.text found rfl
    obtain rfl : text = parentText := Except.ok.inj (htext.unique hparent)
    have hparent' : session.plain.Answers () (chain ++ [name])
        (session.plain.target (Name.directory name) reference) (.ok text) :=
      Uncached.answers htext normalize_target hlonger
    obtain rfl : result = .ok members :=
      hresult.trans (mapError_eq_ok.mpr ((parseDocument_congr hread).trans hparse))
    refine ⟨hm', trivial, ?_, by simp⟩
    rintro members' ⟨⟩
    refine ⟨hparent.builtText.resolved hparse, hparent'.imp fun i hi => ?_⟩
    exact ends_parent_ok.mpr ⟨hmem, text, hi, hparse⟩
  · obtain ⟨hm', hfaithful⟩ := hfetch m _ m' hm he
    refine ⟨hm', trivial, by simp, ?_⟩
    rintro e' ⟨⟩
    exact Or.inl ((hfaithful.error e rfl).through _)

include huncached hroot hapart in
/-- A text that is built from such parents is the one without the cache. -/
theorem faithful_keptText (hnormal : Name.normalize name = name)
    (hname : Relation.ReflTransGen (session.plain.Refers ()) root name)
    (hchain : ∀ earlier ∈ chain, session.plain.Reaches () earlier name)
    (hdocument : session.plain.document? () name = some document)
    (htext : session.Uncached name (.ok text))
    (hfetch : ∀ other m result m', session.plain.Refers () name other →
      (session.unmisled root).Holds m →
        Ends ((session.registry caching).fetch true levels (chain ++ [name]) other) m result m' →
          (session.unmisled root).Holds m' ∧ session.Faithful other result)
    (hm : (session.unmisled root).Holds m)
    (h : Ends (session.keptText caching levels chain name document) m result m') :
    (session.unmisled root).Holds m' ∧ session.Faithful name result := by
  have hkeep : session.CanKeep (session.unmisled root) name :=
    fun u text hu huncached => ⟨hu.1, unmisled_insert hapart hu hname huncached, trivial⟩
  have hfollow : (Simulation.following (session.unmisled root)
      SchemaError.IsBrokenCache ()).Relates BuiltText
        (session.keptText caching levels chain name document)
        fun i => session.plain.fetch false i chain name := by
    refine following_keptText hnormal hkeep hdocument ?_
    refine following_buildDocument (unique_of_document? hdocument) fun reference hmentions => ?_
    have hrefers : session.plain.Refers () name
        (session.plain.target (Name.directory name) reference) :=
      ⟨document, hdocument, reference, hmentions, rfl⟩
    exact following_cachedParents huncached hroot hname hchain hrefers
      fun m result m' => hfetch _ m result m' hrefers
  have hanswers : session.plain.Answers () chain name (.ok text) :=
    Uncached.answers htext hnormal hchain
  obtain ⟨hm', -, hok, herror⟩ := hfollow m hm _ _ h
  refine ⟨hm', ?_, ?_⟩
  · rintro found rfl
    obtain rfl : found = text := Except.ok.inj (Answers.unique (hok found rfl).2 hanswers)
    exact ⟨found, htext, rfl⟩
  · rintro e rfl
    rcases herror e rfl with hbroken | heventually
    · exact hbroken
    · exact absurd (Answers.unique heventually hanswers) (by simp)

include huncached hroot hapart in
/-- A name that the root inherits from is fetched as without the cache, as long as no entry
misleads. -/
theorem faithful_fetch (levels : Nat) (hreach : session.plain.Reaches () root name)
    (hchain : ∀ earlier ∈ chain, session.plain.Reaches () earlier name)
    (hm : (session.unmisled root).Holds m)
    (h : Ends ((session.registry caching).fetch true levels chain name) m result m') :
    (session.unmisled root).Holds m' ∧ session.Faithful name result := by
  induction levels generalizing chain name m result m' with
  | zero => exact absurd h Build.not_ends_unfinished
  | succ levels ih =>
    have hnormal : Name.normalize name = name := normal_of_reaches hreach
    obtain ⟨text, members, htext, -⟩ := huncached.parsed hroot hreach
    rcases (ends_fetch_cached hnormal).mp h with
      ⟨e, hentry, rfl, rfl⟩ | ⟨entry, hentry, rfl, rfl⟩ |
        ⟨-, ⟨e, hloaded, rfl, rfl⟩ | ⟨document, hdocument, hbuild⟩⟩
    · refine ⟨hm, by simp, ?_⟩
      rintro e' ⟨⟩
      exact isBrokenCache_of_entryText hentry
    · refine ⟨hm, ?_, by simp⟩
      rintro found ⟨⟩
      refine ⟨text, htext, ?_⟩
      by_contra hne
      exact hm.2 name hreach ⟨entry, text, hentry, htext, hne⟩
    · have hfailed : session.Uncached name (.error e) :=
        answers_of_loaded (hnormal.symm ▸ hloaded)
      exact absurd (hfailed.unique htext) (by simp)
    · refine faithful_keptText huncached hroot hapart hnormal hreach.to_reflTransGen hchain
        hdocument htext ?_ hm hbuild
      intro other m result m' hrefers hm hends
      exact ih (hreach.tail hrefers) (forall_reaches_of_refers hchain hrefers) hm hends

include huncached hroot hapart in
/-- The root has no entry to be misled by: its own would be the answer. -/
theorem isBrokenCache_of_unmisled (hm : (session.unmisled root).Holds m) {e : SchemaError}
    (h : Ends ((session.registry caching).fetch true levels [] root) m (.error e) m') :
    e.IsBrokenCache := by
  cases levels with
  | zero => exact absurd h Build.not_ends_unfinished
  | succ levels =>
    rcases (ends_fetch_cached hroot).mp h with
      ⟨inner, hentry, he, -⟩ | ⟨entry, -, he, -⟩ |
        ⟨-, ⟨inner, hloaded, -, -⟩ | ⟨document, hdocument, hbuild⟩⟩
    · exact Except.error.inj he ▸ isBrokenCache_of_entryText hentry
    · simp at he
    · have hfailed : session.Uncached root (.error inner) :=
        answers_of_loaded (hroot.symm ▸ hloaded)
      exact absurd (hfailed.unique huncached) (by simp)
    · refine (faithful_keptText huncached hroot hapart hroot .refl (by simp) hdocument huncached
        ?_ hm hbuild).2.error e rfl
      intro other m result m' hrefers hm hends
      refine faithful_fetch huncached hroot hapart levels (.single hrefers) ?_ hm hends
      exact forall_reaches_of_refers (by simp) hrefers

end Led

/-! ## Blame -/

/-- The root of the stored document extends the other name first. -/
def ExtendsFirst (session : Session) (name other : String) : Prop :=
  ∃ document v reference rest, session.plain.document? () name = some document ∧
    Members.find? "extends" document = some v ∧
    Building.references [] v = .ok (reference :: rest) ∧
    session.plain.target (Name.directory name) reference = other

theorem ExtendsFirst.refers (h : session.ExtendsFirst name other) :
    session.plain.Refers () name other := by
  obtain ⟨document, v, reference, rest, hdocument, hextends, hnames, rfl⟩ := h
  refine ⟨document, hdocument, reference, ⟨document, .refl, ?_⟩, rfl⟩
  rw [Building.ownReferences_of_references hextends hnames]
  exact List.mem_cons_self

/-- A cached text that is no object is taken for the text of the parent, which cannot be parsed. -/
theorem eventually_blamed {entry : String} {v : Value} (hnormal : Name.normalize name = name)
    (hfirst : session.ExtendsFirst name other) (hother : other ≠ name)
    (hmissing : entryText m name = .ok none) (hentry : entryText m other = .ok (some entry))
    (hread : Value.read entry = .ok v) (hobject : ∀ members, v ≠ .object members) :
    Eventually fun levels => Ends ((session.registry true).getSchema levels name) m
      (.error (.brokenExtend other (.unparsable other .notObject))) m := by
  obtain ⟨document, extended, reference, rest, hdocument, hextends, hnames, rfl⟩ := hfirst
  refine ⟨3, fun levels hlevels => ?_⟩
  obtain ⟨more, rfl⟩ : ∃ more, levels = more + 1 + 1 := ⟨levels - 2, by omega⟩
  have hfetch : Ends ((session.registry true).fetch true (more + 1) [name]
      (session.plain.target (Name.directory name) reference)) m (.ok entry) m :=
    (ends_fetch_cached normalize_target).mpr (Or.inr (Or.inl ⟨entry, hentry, rfl, rfl⟩))
  have hparse : parseDocument (session.plain.target (Name.directory name) reference) entry =
      .error (.unparsable (session.plain.target (Name.directory name) reference) .notObject) := by
    unfold parseDocument
    rw [hread]
    cases v with
    | object members => exact absurd rfl (hobject members)
    | _ => rfl
  have hparent : Ends (session.cachedParents true (more + 1) [] name reference) m
      (.error (.brokenExtend (session.plain.target (Name.directory name) reference)
        (.unparsable (session.plain.target (Name.directory name) reference) .notObject))) m := by
    refine ends_parent.mpr (Or.inr ⟨fun hmem => hother (List.mem_singleton.mp hmem),
      Or.inl ⟨entry, hfetch, Eq.symm (mapError_eq_error.mpr ⟨_, hparse, ?_⟩)⟩⟩)
    rfl
  refine (ends_fetch_cached hnormal).mpr (Or.inr (Or.inr ⟨hmissing, Or.inr ⟨document, hdocument,
    Build.ends_bind_of_error (Build.ends_map.mpr (Or.inr ⟨_, ?_, rfl⟩))⟩⟩))
  exact Building.ends_buildNode_of_first (unique_of_document? hdocument) hextends hnames hparent

/-- A call that could do without the cache fails only by a broken entry, which is no fault of the
documents, unless the entry of an inherited name misleads it.  An entry that is JSON but no object
does: it is the documents that are blamed then. -/
theorem broken_or_misled (hwritable : m.readOnly = false)
    (huncached : session.Uncached name (.ok text)) :
    (session.KeysApart [.getSchema name] → ∀ levels e m',
      Ends ((session.registry true).getSchema levels name) m (.error e) m' →
        (∃ other, session.plain.Reaches () (Name.normalize name) other ∧
            session.Misleads m other) ∨
          e.IsBrokenCache ∧ e.isInvalidSchema = false ∧
            (Command.Ending.ofError e).exitCode = 1) ∧
    ∀ other entry v, session.ExtendsFirst (Name.normalize name) other →
      entryText m (Name.normalize name) = .ok none → entryText m other = .ok (some entry) →
      Value.read entry = .ok v → (∀ members, v ≠ .object members) →
        ∃ e, e.isInvalidSchema = true ∧ (Command.Ending.ofError e).exitCode = 2 ∧
          e.innermost = .unparsable other .notObject ∧ Eventually fun levels =>
            Ends ((session.registry true).getSchema levels name) m (.error e) m := by
  have hanswers : session.Uncached (Name.normalize name) (.ok text) :=
    answers_normalize_iff.mpr huncached
  have hnormal : Name.normalize (Name.normalize name) = Name.normalize name :=
    Name.normalize_normalize name
  constructor
  · intro hapart levels e m' h
    by_cases hmisled : ∃ other, session.plain.Reaches () (Name.normalize name) other ∧
        session.Misleads m other
    · exact Or.inl hmisled
    · have hm : (session.unmisled (Name.normalize name)).Holds m :=
        ⟨hwritable, fun other hreach hother => hmisled ⟨other, hreach, hother⟩⟩
      have hbroken : e.IsBrokenCache := by
        unfold getSchema at h
        rw [← fetch_normalize] at h
        refine isBrokenCache_of_unmisled hanswers hnormal ?_ hm h
        intro one two hone htwo
        exact hapart one two (inUse_of_reaches hone) (inUse_of_reaches htwo)
      refine Or.inr ⟨hbroken, hbroken.not_invalidSchema, ?_⟩
      rw [Command.Ending.ofError, hbroken.not_invalidSchema]
      rfl
  · intro other entry v hfirst hmissing hentry hread hobject
    have hother : other ≠ Name.normalize name := by
      rintro rfl
      exact hanswers.acyclic hnormal .refl (.single hfirst.refers)
    refine ⟨.brokenExtend other (.unparsable other .notObject), rfl, rfl, rfl, ?_⟩
    refine (eventually_blamed hnormal hfirst hother hmissing hentry hread hobject).imp ?_
    intro levels h
    unfold getSchema at h ⊢
    rwa [← fetch_normalize]

/-- A cache whose entry for a parent is JSON but no object. -/
def hollow : MemoryStore :=
  MemoryStore.empty.insert (cacheKey "b") "[]".toUTF8

theorem not_misleads_corrupt (hreach : family.plain.Reaches () "a" other) :
    ¬ family.Misleads corrupt other := by
  obtain ⟨middle, hmiddle, hrefers⟩ := Relation.TransGen.tail'_iff.mp hreach
  obtain rfl := family_refers (family_reaches hmiddle) hrefers
  rintro ⟨entry, -, hentry, -⟩
  have hbroken : (Value.read "\x7bbroken").toOption = none := by decide +kernel
  unfold corrupt at hentry
  rw [entryText_of_find? MemoryStore.find?_insert] at hentry
  cases hread : Value.read "\x7bbroken" with
  | error fault => simp [hread] at hentry
  | ok v => simp [hread, Except.toOption] at hbroken

theorem family_extendsFirst : family.ExtendsFirst "a" "b" :=
  ⟨[("extends", .string "b")], .string "b", "b", [], by decide +kernel, rfl, rfl, by decide +kernel⟩

/-- The broken entry is blamed itself, the hollow one blames the documents. -/
theorem hollow_entry_blames_documents :
    family.Uncached "a" (.ok "\x7b\"type\":\"string\"\x7d") ∧
      family.KeysApart [.getSchema "a"] ∧
      (∃ e t, Ends ((family.registry true).getSchema 4 "a") corrupt (.error e) t ∧
        e.IsBrokenCache ∧ e.isInvalidSchema = false ∧ (Command.Ending.ofError e).exitCode = 1) ∧
      ∃ e, e.isInvalidSchema = true ∧ (Command.Ending.ofError e).exitCode = 2 ∧
        e.innermost = .unparsable "b" .notObject ∧ Eventually fun levels =>
          Ends ((family.registry true).getSchema levels "a") hollow (.error e) hollow := by
  have ha : Name.normalize "a" = "a" := by decide +kernel
  have huncached : family.Uncached "a" (.ok "\x7b\"type\":\"string\"\x7d") :=
    answers_of_ends ⟨rfl, rfl⟩ ends_family
  have hapart : family.KeysApart [.getSchema "a"] :=
    keysApart_of_pair (by simp) fun _ _ => family_refers
  refine ⟨huncached, hapart, ?_, ?_⟩
  · obtain ⟨t, hends⟩ := exists_ends_corrupt
    refine ⟨_, t, hends, ?_⟩
    rcases (broken_or_misled rfl huncached).1 hapart 4 _ t hends with ⟨other, hreach, hmisled⟩ | h
    · rw [ha] at hreach
      exact absurd hmisled (not_misleads_corrupt hreach)
    · exact h
  · have hmissing : entryText hollow "a" = .ok none := by
      have hkeys : cacheKey "a" ≠ cacheKey "b" := by decide +kernel
      exact entryText_congr (m := MemoryStore.empty) (MemoryStore.find?_insert_of_ne hkeys)
    have hread : Value.read "[]" = .ok (.array []) := by decide +kernel
    have hentry : entryText hollow "b" = .ok (some "[]") := by
      unfold hollow
      rw [entryText_of_find? MemoryStore.find?_insert, hread]
    have hblamed := (broken_or_misled (m := hollow) rfl huncached).2 "b" "[]" (.array [])
    rw [ha] at hblamed
    exact hblamed family_extendsFirst hmissing hentry hread (by simp)

end Session
end Schemata
