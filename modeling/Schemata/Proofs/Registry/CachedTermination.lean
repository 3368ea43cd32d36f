import Schemata.Proofs.Registry.Ranking
import Schemata.Proofs.Registry.Session

/-!
# Termination through a cache

A cached text is answered as it is, before its name joins the chain; whatever references it has are
followed where it is merged.  The chain does not see them come back.  What bounds a fetch is a
ranking of the names: documents refer to names of no higher rank, and the references of a cached
text lead to names of lower rank, in whatever directory they are read.  If no cached text leads back
to itself then there is such a ranking, and it is kept, since a text that is built and cached has
only references that a cached text has left to it.  In a session, where only the registry writes to
its cache, cached texts have no references, so that every call for a name is answered
(`Session.Run.ends_getSchema`).
-/

namespace Schemata

open Build (Ends)
open Json (Value)
open Registry

/-- What is found under a key after a text has been put is either that text under its own key, or
was there before. -/
def Store.Honest {σ : Type} (cache : Store σ) : Prop :=
  ∀ s name bytes other found,
    cache.get (cache.put s (cacheKey name) bytes).2 (cacheKey other) = .ok (some found) →
      cache.get s (cacheKey other) = .ok (some found) ∨
        (cacheKey other = cacheKey name ∧ found = bytes)

theorem MemoryStore.honest : MemoryStore.store.Honest := by
  intro m name bytes other found h
  by_cases hreadOnly : m.readOnly = true
  · refine Or.inl ?_
    simpa [MemoryStore.store, hreadOnly] using h
  · have hfind : (m.insert (cacheKey name) bytes).find? (cacheKey other) = some found := by
      simpa [MemoryStore.store, hreadOnly] using h
    by_cases hkey : cacheKey other = cacheKey name
    · rw [hkey, MemoryStore.find?_insert, Option.some.injEq] at hfind
      exact Or.inr ⟨hkey, hfind.symm⟩
    · rw [MemoryStore.find?_insert_of_ne hkey] at hfind
      exact Or.inl (congrArg Except.ok hfind)

namespace Session

variable {σ : Type} {session : Session} {cache : Store σ} {s : σ} {rank : String → Nat}
  {names : List String} {name text : String}

/-- The registry with any cache, switched on. -/
def through (session : Session) (cache : Store σ) : Registry σ :=
  ⟨fun _ => session.documents, some cache, session.resolve, true⟩

theorem sameSource_through : SameSource (session.through cache) s session.plain () :=
  ⟨rfl, rfl⟩

theorem document?_through : (session.through cache).document? s = session.plain.document? () :=
  sameSource_through.document?.symm

/-! ## Where cached texts lead -/

/-- The text is cached under the key of the name. -/
def Caches (cache : Store σ) (s : σ) (name text : String) : Prop :=
  ∃ bytes, cache.get s (cacheKey name) = .ok (some bytes) ∧ Utf8.decode bytes = .ok text

/-- A reference of the text stands for the name, if it is read where some stored document is. -/
def TextRefers (session : Session) (text other : String) : Prop :=
  ∃ members reference source document, Value.read text = .ok (.object members) ∧
    Node.Mentions members reference ∧ session.plain.document? () source = some document ∧
      other = session.plain.target (Name.directory source) reference

/-- The document of the one name or its cached text refers to the other name, or they share their
key. -/
def Leads (session : Session) (cache : Store σ) (s : σ) (name other : String) : Prop :=
  session.plain.Refers () name other ∨
    (∃ text, Caches cache s name text ∧ session.TextRefers text other) ∨
      cacheKey name = cacheKey other

/-- Some cached text leads back to its own name. -/
def LeadsBack (session : Session) (cache : Store σ) (s : σ) : Prop :=
  ∃ name text other, Caches cache s name text ∧ session.TextRefers text other ∧
    Relation.ReflTransGen (session.Leads cache s) other name

/-! ## A ranking -/

/-- A document is stored under the name. -/
def Stored (session : Session) (name : String) : Prop :=
  ∃ document, session.plain.document? () name = some document

/-- Every cached text leads to names of lower rank. -/
def Descends (session : Session) (cache : Store σ) (rank : String → Nat) (s : σ) : Prop :=
  ∀ name text, Caches cache s name text →
    (session.through cache).TextBelow session.Stored rank (rank name) text

/-- The keys of the cache are among these. -/
def KeysAmong (cache : Store σ) (s : σ) (keys : List String) : Prop :=
  ∀ name bytes, cache.get s (cacheKey name) = .ok (some bytes) → cacheKey name ∈ keys

theorem keysAmong_memory {m : MemoryStore} :
    KeysAmong MemoryStore.store m (m.entries.map Prod.fst) := by
  intro name bytes h
  have hfind : m.find? (cacheKey name) = some bytes := Except.ok.inj h
  exact List.mem_map.mpr ⟨_, MemoryStore.mem_of_find? hfind, rfl⟩

/-- A text that is below the rank of its name may be kept under it. -/
theorem Descends.put (hcache : cache.Honest)
    (hkey : ∀ {name other}, cacheKey name = cacheKey other → rank other ≤ rank name)
    (hs : session.Descends cache rank s)
    (htext : (session.through cache).TextBelow session.Stored rank (rank name) text) :
    session.Descends cache rank (cache.put s (cacheKey name) text.toUTF8).2 := by
  rintro other found ⟨bytes, hbytes, hdecode⟩
  rcases hcache s name _ other bytes hbytes with hold | ⟨hsame, rfl⟩
  · exact hs other found ⟨bytes, hold, hdecode⟩
  · rw [Utf8.decode_toUTF8, Except.ok.injEq] at hdecode
    subst hdecode
    exact htext.mono (hkey hsame)

/-- If no cached text leads back to itself, there is a ranking for as long as texts are cached. -/
theorem exists_ranked {keys : List String} (hcache : cache.Honest)
    (hnames : session.plain.StoredAmong () names) (hkeys : KeysAmong cache s keys)
    (hnone : ¬ session.LeadsBack cache s) :
    ∃ rank, (session.through cache).Ranked (session.Descends cache rank) session.Stored rank names ∧
      session.Descends cache rank s ∧ ∀ name, rank name ≤ keys.length := by
  obtain ⟨rank, hleads, hdrops, hrank⟩ := exists_rank (session.Leads cache s)
    (fun name other => ∃ text, Caches cache s name text ∧ session.TextRefers text other)
    cacheKey keys
    (fun hdrops => by
      obtain ⟨text, ⟨bytes, hbytes, hdecode⟩, hrefers⟩ := hdrops
      exact ⟨Or.inr (Or.inl ⟨text, ⟨bytes, hbytes, hdecode⟩, hrefers⟩), hkeys _ bytes hbytes⟩)
    (fun hkey => Or.inr (Or.inr hkey))
    (fun ⟨text, hcaches, hrefers⟩ hpath => hnone ⟨_, text, _, hcaches, hrefers, hpath⟩)
  refine ⟨rank, ⟨?_, ?_, ?_⟩, ?_, hrank⟩
  · intro t _ name document _ hdocument
    rw [document?_through] at hdocument
    refine ⟨⟨document, hdocument⟩, fun reference hmentions => Or.inr ⟨?_, ?_⟩⟩
    · exact exists_mem_of_document? hnames hdocument
    · exact hleads (Or.inl ⟨document, hdocument, reference, hmentions, rfl⟩)
  · rintro t ht _ ⟨⟩ name bytes text hbytes hdecode
    exact ht name text ⟨bytes, hbytes, hdecode⟩
  · rintro t ht _ ⟨⟩ name text htext
    exact ht.put hcache (fun hkey => hleads (Or.inr (Or.inr hkey))) htext
  · rintro name text hcaches members hread reference hmentions source ⟨document, hdocument⟩
    exact hdrops ⟨text, hcaches, members, reference, source, document, hread, hmentions, hdocument,
      rfl⟩

/-- If no cached text leads back to itself, every name is answered through the cache, and the
registry's levels are enough. -/
theorem ends_getSchema_of_not_leadsBack (hcache : cache.Honest)
    (hnames : session.plain.StoredAmong () names) {keys : List String}
    (hkeys : KeysAmong cache s keys) (hnone : ¬ session.LeadsBack cache s) (name : String) :
    ∃ result t, ∀ levels, levelsFor names.length keys.length ≤ levels →
      Ends ((session.through cache).getSchema levels name) s result t := by
  obtain ⟨rank, hranked, hs, hrank⟩ := exists_ranked hcache hnames hkeys hnone
  exact hranked.exists_ends hs rfl (Nat.le_refl _) hrank name

/-- Texts that were built from parents without references lead nowhere. -/
theorem not_leadsBack_of_builtText (h : ∀ name text, Caches cache s name text → BuiltText text) :
    ¬ session.LeadsBack cache s := by
  rintro ⟨name, text, other, hcaches, hrefers, -⟩
  obtain ⟨members, reference, -, -, hread, hmentions, -⟩ := hrefers
  have hresolved : Resolved members :=
    (h name text hcaches).resolved (parseDocument_eq_ok.mpr hread : parseDocument name text = _)
  exact hresolved.closed.not_mentions hmentions

/-- In a session, where only the registry writes to its cache, every call for a name is answered. -/
theorem Run.ends_getSchema {calls : List Call} {caching : Bool} {m : MemoryStore}
    (hrun : session.Run calls caching m) (hapart : session.KeysApart calls)
    (hnames : session.plain.StoredAmong () names) (name : String) :
    ∃ result m', ∀ levels, levelsFor names.length m.entries.length ≤ levels →
      Ends ((session.registry true).getSchema levels name) m result m' := by
  have hbuilt : ∀ name text, Caches MemoryStore.store m name text → BuiltText text := by
    rintro name text ⟨bytes, hbytes, hdecode⟩
    obtain ⟨source, kept, -, -, hanswers, hentry⟩ :=
      (hrun.sound hapart).2 _ (MemoryStore.mem_of_find? (Except.ok.inj hbytes))
    rw [Prod.mk.injEq] at hentry
    rw [hentry.2, Utf8.decode_toUTF8, Except.ok.injEq] at hdecode
    exact hdecode ▸ hanswers.builtText
  obtain ⟨result, m', hends⟩ := ends_getSchema_of_not_leadsBack MemoryStore.honest hnames
    keysAmong_memory (not_leadsBack_of_builtText hbuilt) name
  rw [List.length_map] at hends
  exact ⟨result, m', hends⟩

end Session
end Schemata
