import Schemata.Proofs.Registry.Answer
import Schemata.Proofs.Store.Memory

/-!
# Fetching through a cache

A cache in memory is sound when each entry is the text that the name of its key answers without
the cache.  A fetch through a sound cache keeps it sound, only adds entries, and answers what the
fetch without a cache answers; the exception is an error which says that an entry cannot be read
back.

An entry may have been written under another chain of names than the one under which it is found.
That makes no difference, since all names of the chain lead to the name that is fetched, and a
name with a text leads to none of them.
-/

namespace Schemata

namespace SchemaError

/-- The error inside all wrappers. -/
def innermost : SchemaError → SchemaError
  | brokenExtend _ source => source.innermost
  | e => e

/-- It is the last of the errors that the wrappers tell. -/
theorem innermost_eq_getLast (e : SchemaError) :
    e.innermost = (e :: e.sources).getLast (List.cons_ne_nil _ _) := by
  induction e with
  | brokenExtend reference source ih =>
    simp only [innermost, sources]
    rw [List.getLast_cons_cons, ih]
  | _ => rfl

/-- An entry of the cache is the cause. -/
def IsBrokenCache (e : SchemaError) : Prop :=
  ∃ name key, e.innermost = .brokenCache name key

theorem IsBrokenCache.through {e : SchemaError} (h : e.IsBrokenCache) (reference : String) :
    (e.through reference).IsBrokenCache := by
  cases e with
  | cyclicExtend chain => exact h
  | _ => exact h

end SchemaError

open Build (Ends Reads)
open Json (Members Value)
open Registry

/-- Documents and a way to resolve references. -/
structure Session where
  documents : String → Lookup
  resolve : String → String → String

namespace Session

/-- The registry with its cache in memory. -/
def registry (session : Session) (caching : Bool) : Registry MemoryStore :=
  ⟨fun _ => session.documents, some MemoryStore.store, session.resolve, caching⟩

/-- The registry without a cache. -/
def plain (session : Session) : Registry Unit :=
  ⟨fun _ => session.documents, none, session.resolve, false⟩

/-- What a name answers without a cache. -/
def Uncached (session : Session) (name : String) (result : Except SchemaError String) : Prop :=
  session.plain.Answers () [] name result

variable {session : Session} {caching : Bool} {m m' : MemoryStore} {levels : Nat}
  {chain : List String} {name text : String} {result : Except SchemaError String}
  {document : Members}

theorem sameSource : SameSource (session.registry caching) m session.plain () :=
  ⟨rfl, rfl⟩

/-! ## Entries -/

/-- What is read back from the entry of a name. -/
def entryText (m : MemoryStore) (name : String) : Except SchemaError (Option String) :=
  match m.find? (cacheKey name) with
  | none => .ok none
  | some bytes =>
    match Utf8.decode bytes with
    | .error _ => .error (.brokenCache name (cacheKey name))
    | .ok text =>
      match Value.read text with
      | .ok _ => .ok (some text)
      | .error _ => .error (.brokenCache name (cacheKey name))

/-- A text that is kept is read back if it is JSON. -/
theorem entryText_of_find? (h : m.find? (cacheKey name) = some text.toUTF8) :
    entryText m name =
      match Value.read text with
      | .ok _ => .ok (some text)
      | .error _ => .error (.brokenCache name (cacheKey name)) := by
  unfold entryText
  rw [h]
  simp only [Utf8.decode_toUTF8]

/-- An entry that cannot be read is blamed itself. -/
theorem isBrokenCache_of_entryText {e : SchemaError} (h : entryText m name = .error e) :
    e.IsBrokenCache := by
  refine ⟨name, cacheKey name, ?_⟩
  unfold entryText at h
  split at h
  · simp at h
  · split at h
    · rw [← Except.error.inj h]
      rfl
    · split at h
      · simp at h
      · rw [← Except.error.inj h]
        rfl

theorem ends_readCache {found : Except SchemaError (Option String)} :
    Ends ((session.registry caching).readCache name) m found m' ↔
      found = entryText m name ∧ m' = m := by
  have hget : MemoryStore.store.get m (cacheKey name) = .ok (m.find? (cacheKey name)) := rfl
  unfold readCache entryText
  simp only [registry]
  rw [Build.ends_bind]
  cases hfind : m.find? (cacheKey name) with
  | none => simp [hget, hfind]
  | some bytes =>
    cases hdecode : Utf8.decode bytes with
    | error fault => simp [hget, hfind, hdecode]
    | ok decoded =>
      cases hread : Value.read decoded with
      | error fault => simp [hget, hfind, hdecode, hread]
      | ok v => simp [hget, hfind, hdecode, hread]

theorem ends_writeCache (hwritable : m.readOnly = false) {outcome : Except SchemaError Unit} :
    Ends ((session.registry caching).writeCache name text) m outcome m' ↔
      outcome = .ok () ∧ m' = m.insert (cacheKey name) text.toUTF8 := by
  unfold writeCache
  simp [registry, MemoryStore.store, hwritable, Build.ends_bind]

theorem ends_keep (hwritable : m.readOnly = false) :
    Ends (do
      (session.registry caching).writeCache name text
      return text) m result m' ↔
        result = .ok text ∧ m' = m.insert (cacheKey name) text.toUTF8 := by
  rw [Build.ends_bind]
  simp [ends_writeCache hwritable, and_comm]

/-- The parents of a document, fetched through the cache. -/
abbrev cachedParents (session : Session) (caching : Bool) (levels : Nat) (chain : List String)
    (name : String) : String → Build MemoryStore Members :=
  (session.registry caching).parent ((session.registry caching).fetch true levels)
    (chain ++ [name]) (Name.directory name)

/-- The text of a document that is built with cached parents and then kept. -/
def keptText (session : Session) (caching : Bool) (levels : Nat) (chain : List String)
    (name : String) (document : Members) : Build MemoryStore String := do
  let text ← buildDocument (session.cachedParents caching levels chain name) levels document
  (session.registry caching).writeCache name text
  return text

theorem ends_keptText_ok {built : Members} (hwritable : m'.readOnly = false)
    (h : Ends (Building.buildNode (session.cachedParents caching levels chain name) levels []
      document) m (.ok built) m') :
    Ends (session.keptText caching levels chain name document) m (.ok (builtText built))
      (m'.insert (cacheKey name) (builtText built).toUTF8) :=
  Build.ends_bind_ok.mpr ⟨builtText built, m', Build.ends_map_ok.mpr ⟨built, h, rfl⟩,
    (ends_keep hwritable).mpr ⟨rfl, rfl⟩⟩

theorem fetch_cached (hnormal : Name.normalize name = name) :
    (session.registry caching).fetch true (levels + 1) chain name = (do
      match ← (session.registry caching).readCache name with
      | some text => return text
      | none => do
        let loaded ← (session.registry caching).loadDocument name
        session.keptText caching levels chain name loaded.2) := by
  rw [fetch, hnormal]
  simp only [if_true, keptText, buildDocument, map_eq_pure_bind, bind_assoc, pure_bind]
  rfl

/-- How a fetch through the cache ends: with an entry, or with a text that is built and kept. -/
theorem ends_fetch_cached (hnormal : Name.normalize name = name) :
    Ends ((session.registry caching).fetch true (levels + 1) chain name) m result m' ↔
      (∃ e, entryText m name = .error e ∧ result = .error e ∧ m' = m) ∨
      (∃ text, entryText m name = .ok (some text) ∧ result = .ok text ∧ m' = m) ∨
      entryText m name = .ok none ∧
        ((∃ e, session.plain.loaded () name = .error e ∧ result = .error e ∧ m' = m) ∨
        ∃ document, session.plain.document? () name = some document ∧
          Ends (session.keptText caching levels chain name document) m result m') := by
  rw [fetch_cached hnormal, Build.ends_bind]
  simp only [ends_readCache]
  cases hentry : entryText m name with
  | error e => simp [and_comm]
  | ok found =>
    cases found with
    | some text => simp
    | none =>
      have hloaded : Ends (do
            let loaded ← (session.registry caching).loadDocument name
            session.keptText caching levels chain name loaded.2) m result m' ↔
          (∃ e, session.plain.loaded () name = .error e ∧ result = .error e ∧ m' = m) ∨
            ∃ document, session.plain.document? () name = some document ∧
              Ends (session.keptText caching levels chain name document) m result m' :=
        ends_loadDocument_bind
      simpa using hloaded

/-! ## Soundness -/

section Sound

variable (session) (InUse : String → Prop)

/-- The entry is the text that a name in use answers without a cache, under the name's key. -/
def SoundEntry (entry : String × ByteArray) : Prop :=
  ∃ name text, InUse name ∧ Name.normalize name = name ∧ session.Uncached name (.ok text) ∧
    entry = (cacheKey name, text.toUTF8)

/-- All entries are sound, and none is changed or removed later. -/
def sound : StateInvariant MemoryStore where
  Holds m := m.readOnly = false ∧ ∀ entry ∈ m.entries, session.SoundEntry InUse entry
  Later m m' := m.entries <+: m'.entries
  refl m := List.prefix_refl m.entries
  trans h h' := h.trans h'

end Sound

variable {InUse : String → Prop}

section KeysApart

variable (hapart : ∀ name other, InUse name → InUse other → cacheKey name = cacheKey other →
  name = other)

include hapart in
/-- What is found under the key of a name is the text of that name. -/
theorem uncached_of_find? (hsound : (session.sound InUse).Holds m) (hname : InUse name)
    {bytes : ByteArray} (hfind : m.find? (cacheKey name) = some bytes) :
    ∃ text, session.Uncached name (.ok text) ∧ bytes = text.toUTF8 := by
  obtain ⟨owner, text, howner, -, hanswers, hentry⟩ :=
    hsound.2 _ (MemoryStore.mem_of_find? hfind)
  rw [Prod.mk.injEq] at hentry
  obtain rfl := hapart name owner hname howner hentry.1
  exact ⟨text, hanswers, hentry.2⟩

include hapart in
theorem sound_insert (hsound : (session.sound InUse).Holds m) (hname : InUse name)
    (hnormal : Name.normalize name = name) (hanswers : session.Uncached name (.ok text)) :
    (session.sound InUse).Holds (m.insert (cacheKey name) text.toUTF8) ∧
      (session.sound InUse).Later m (m.insert (cacheKey name) text.toUTF8) := by
  cases hfind : m.find? (cacheKey name) with
  | none =>
    have hentries : (m.insert (cacheKey name) text.toUTF8).entries =
        m.entries ++ [(cacheKey name, text.toUTF8)] :=
      MemoryStore.entries_insert_of_find?_eq_none hfind
    refine ⟨⟨hsound.1, fun entry hentry => ?_⟩, ?_⟩
    · rw [hentries] at hentry
      rcases List.mem_append.mp hentry with hold | hnew
      · exact hsound.2 entry hold
      · exact ⟨name, text, hname, hnormal, hanswers, List.mem_singleton.mp hnew⟩
    · exact ⟨_, hentries.symm⟩
  | some bytes =>
    obtain ⟨kept, hkept, rfl⟩ := uncached_of_find? hapart hsound hname hfind
    have hsame : kept = text := Except.ok.inj (hkept.unique hanswers)
    rw [hsame] at hfind
    rw [MemoryStore.insert_of_find?_eq_some hfind]
    exact ⟨hsound, StateInvariant.refl _ m⟩

include hapart in
/-- An entry that is read back is the text of its name. -/
theorem uncached_of_entryText (hsound : (session.sound InUse).Holds m) (hname : InUse name)
    (hentry : entryText m name = .ok (some text)) : session.Uncached name (.ok text) := by
  cases hfind : m.find? (cacheKey name) with
  | none => simp [entryText, hfind] at hentry
  | some bytes =>
    obtain ⟨kept, hanswers, rfl⟩ := uncached_of_find? hapart hsound hname hfind
    rw [entryText_of_find? hfind] at hentry
    cases hread : Value.read kept with
    | error fault => simp [hread] at hentry
    | ok v =>
      simp only [hread, Except.ok.injEq, Option.some.injEq] at hentry
      exact hentry ▸ hanswers

/-- A text answers under every chain whose names lead to it. -/
theorem Uncached.answers (h : session.Uncached name (.ok text))
    (hnormal : Name.normalize name = name)
    (hchain : ∀ other ∈ chain, session.plain.Reaches () other name) :
    session.plain.Answers () chain name (.ok text) := by
  refine Answers.ok_of_chain h hnormal fun other hother hreach => ?_
  have hcycle : session.plain.Reaches () name name := hreach.trans (hchain other hother)
  exact h.not_reaches hnormal (List.mem_append_right _ (List.mem_singleton_self name)) hcycle

/-- The names of a chain that lead to a name lead to what it refers to as well. -/
theorem forall_reaches_of_refers {other : String}
    (hchain : ∀ earlier ∈ chain, session.plain.Reaches () earlier name)
    (hrefers : session.plain.Refers () name other) :
    ∀ earlier ∈ chain ++ [name], session.plain.Reaches () earlier other := by
  intro earlier hearlier
  rcases List.mem_append.mp hearlier with hold | hself
  · exact (hchain earlier hold).tail hrefers
  · rw [List.mem_singleton.mp hself]
    exact .single hrefers

/-- Where the invariant holds, the text of the name can be kept, and the invariant with it. -/
def CanKeep (session : Session) (I : StateInvariant MemoryStore) (name : String) : Prop :=
  ∀ m text, I.Holds m → session.Uncached name (.ok text) → m.readOnly = false ∧
    I.Holds (m.insert (cacheKey name) text.toUTF8) ∧
      I.Later m (m.insert (cacheKey name) text.toUTF8)

/-- Building and keeping follows the fetch without a cache if building does. -/
theorem following_keptText {I : StateInvariant MemoryStore} (hnormal : Name.normalize name = name)
    (hkeep : session.CanKeep I name)
    (hdocument : session.plain.document? () name = some document)
    (hbuild : (Simulation.following I SchemaError.IsBrokenCache ()).Relates
      BuiltText (buildDocument (session.cachedParents caching levels chain name) levels document)
        fun i => buildDocument (session.plain.parents i chain name) i document) :
    (Simulation.following I SchemaError.IsBrokenCache ()).Relates BuiltText
      (session.keptText caching levels chain name document)
      fun i => session.plain.fetch false i chain name := by
  have hfetch : (Simulation.following I SchemaError.IsBrokenCache ()).Relates
      BuiltText (buildDocument (session.cachedParents caching levels chain name) levels document)
        fun i => session.plain.fetch false i chain name :=
    Simulation.following_mono hbuild fun result heventually =>
      answers_of_document (hnormal.symm ▸ hdocument) (hnormal.symm ▸ heventually)
  intro m hm result m' h
  rcases Build.ends_bind.mp h with ⟨text, u, htext, hwrite⟩ | ⟨e, he, rfl⟩
  · obtain ⟨hu, hlater, hok, -⟩ := hfetch m hm _ _ htext
    obtain ⟨hbuilt, hanswers⟩ := hok text rfl
    obtain ⟨hwritable, hkept, hlater'⟩ :=
      hkeep u text hu (Answers.ok_of_chain hanswers hnormal (by simp))
    obtain ⟨rfl, rfl⟩ := (ends_keep hwritable).mp hwrite
    refine ⟨hkept, I.trans hlater hlater', ?_, by simp⟩
    rintro text' ⟨⟩
    exact ⟨hbuilt, hanswers⟩
  · obtain ⟨hm', hlater, -, herror⟩ := hfetch m hm _ _ he
    refine ⟨hm', hlater, by simp, ?_⟩
    rintro e' ⟨⟩
    exact herror e rfl

include hapart in
/-- A fetch through a sound cache follows the fetch without a cache. -/
theorem following_cached
    (hclosed : ∀ name other, InUse name → session.plain.Refers () name other → InUse other)
    (levels : Nat) (hnormal : Name.normalize name = name) (hname : InUse name)
    (hchain : ∀ other ∈ chain, session.plain.Reaches () other name) :
    (Simulation.following (session.sound InUse) SchemaError.IsBrokenCache ()).Relates BuiltText
      ((session.registry caching).fetch true levels chain name)
      fun i => session.plain.fetch false i chain name := by
  induction levels generalizing chain name with
  | zero =>
    intro m hm result m' h
    exact absurd h Build.not_ends_unfinished
  | succ levels ih =>
    intro m hm result m' h
    rcases (ends_fetch_cached hnormal).mp h with
      ⟨e, hentry, rfl, rfl⟩ | ⟨text, hentry, rfl, rfl⟩ |
        ⟨-, ⟨e, hloaded, rfl, rfl⟩ | ⟨document, hdocument, hbuild⟩⟩
    · refine ⟨hm, StateInvariant.refl _ _, by simp, ?_⟩
      rintro e' ⟨⟩
      exact Or.inl (isBrokenCache_of_entryText hentry)
    · refine ⟨hm, StateInvariant.refl _ _, ?_, by simp⟩
      rintro text' ⟨⟩
      have huncached := uncached_of_entryText hapart hm hname hentry
      exact ⟨huncached.builtText, huncached.answers hnormal hchain⟩
    · refine ⟨hm, StateInvariant.refl _ _, by simp, ?_⟩
      rintro e' ⟨⟩
      exact Or.inr (answers_of_loaded (hnormal.symm ▸ hloaded))
    · have hkeep : session.CanKeep (session.sound InUse) name :=
        fun u text hu huncached => ⟨hu.1, sound_insert hapart hu hname hnormal huncached⟩
      refine following_keptText hnormal hkeep hdocument ?_ m hm _ _ hbuild
      refine following_buildDocument (unique_of_document? hdocument) fun reference hmentions => ?_
      have hrefers : session.plain.Refers () name
          (session.plain.target (Name.directory name) reference) :=
        ⟨document, hdocument, reference, hmentions, rfl⟩
      exact following_parent rfl (fun reference e he => he.through reference)
        (fun _ => Or.inr rfl) id fun _ => ih normalize_target (hclosed _ _ hname hrefers)
          (forall_reaches_of_refers hchain hrefers)

end KeysApart

end Session
end Schemata
