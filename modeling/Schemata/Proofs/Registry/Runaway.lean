import Schemata.Proofs.Registry.CachedTermination

/-!
# Builds that run away

The names under construction are looked at only when a document is built: a cached text is answered
before its name joins the chain.  A cached text with a property that extends its own name is merged
into that property again and again, and no number of levels is enough.
-/

namespace Schemata

open Build (Ends)
open Json (Members Value)
open Registry

namespace Building

variable {σ : Type} {s : σ} {parent : String → Build σ Members} {location : Pointer}
  {reference : String} {children : Members}

/-- A node that only extends a tree with properties takes them over. -/
theorem ends_prepare_of_properties
    (h : Ends (parent reference) s (.ok [("properties", .object children)]) s) :
    Ends (prepare parent location [("extends", .string reference)]) s
      (.ok [("properties", .object children), ("type", .string "any")]) s := by
  have hmerged : extend [] [("properties", .object children)] =
      [("properties", .object children)] := by
    simp [extend, Inheritance.fill, Members.swapErase, Members.find?]
  have hparents : Ends (inheritParents parent location [("extends", .string reference)]) s
      (.ok [("properties", .object children)]) s := by
    rw [inheritParents_of_reference rfl]
    exact Build.ends_bind_pure_ok.mpr ⟨_, h, hmerged.symm⟩
  have hdeclared : declaration location
      [("properties", .object children), ("type", .string "any")] = .ok (.single .any) := by
    rw [declaration_eq_ok]
    exact ⟨by decide, rfl⟩
  have hallowed : ∀ key ∈ ["properties", "type"], (TypeDecl.single .any).allows key = true := by
    decide
  exact ends_prepare_of_merged hparents rfl hdeclared (checkKeys_eq_ok.mpr hallowed)

end Building

namespace Session

variable {σ : Type} {session : Session} {cache : Store σ} {s : σ} {chain : List String}
  {name directory reference text : String} {levels : Nat}

/-! ## Hits -/

theorem ends_readCache_of_caches {v : Value} (h : Caches cache s name text)
    (hread : Value.read text = .ok v) :
    Ends ((session.through cache).readCache name) s (.ok (some text)) s := by
  obtain ⟨bytes, hbytes, hdecode⟩ := h
  unfold readCache through
  refine Build.ends_bind_ok.mpr ⟨s, s, Build.ends_get.mpr ⟨rfl, rfl⟩, ?_⟩
  simp only [hbytes, hdecode, hread]
  exact Build.ends_pure.mpr ⟨rfl, rfl⟩

theorem ends_readCache_of_missing (h : cache.get s (cacheKey name) = .ok none) :
    Ends ((session.through cache).readCache name) s (.ok none) s := by
  unfold readCache through
  refine Build.ends_bind_ok.mpr ⟨s, s, Build.ends_get.mpr ⟨rfl, rfl⟩, ?_⟩
  simp only [h]
  exact Build.ends_pure.mpr ⟨rfl, rfl⟩

/-- A cached text is answered under every chain. -/
theorem ends_fetch_of_caches {v : Value} (h : Caches cache s name text)
    (hread : Value.read text = .ok v) (hnormal : Name.normalize name = name) :
    Ends ((session.through cache).fetch true (levels + 1) chain name) s (.ok text) s := by
  have hfound : Ends ((session.through cache).readCache name) s (.ok (some text)) s :=
    ends_readCache_of_caches h hread
  rw [fetch, hnormal]
  refine Build.ends_bind_ok.mpr ⟨some text, s, hfound, ?_⟩
  exact Build.ends_pure.mpr ⟨rfl, rfl⟩

/-! ## Traps -/

/-- The cached text of each of the names is an object with a property that, in the directory,
extends one of them. -/
def Trap (session : Session) (cache : Store σ) (s : σ) (directory : String)
    (Snared : String → Prop) : Prop :=
  ∀ name, Snared name → ∃ text property reference, Caches cache s name text ∧
    Value.read text = .ok (.object [("properties", .object [(property,
      .object [("extends", .string reference)])])]) ∧
    Snared (session.plain.target directory reference)

variable {Snared : String → Prop}

/-- Each level of the walk comes to a node that extends a name of the trap. -/
theorem Trap.not_ends_buildNode (htrap : session.Trap cache s directory Snared)
    (hchain : ∀ other ∈ chain, ¬ Snared other) {height : Nat} {location : Pointer}
    (hsnared : Snared (session.plain.target directory reference))
    {result : Except SchemaError Members} {t : σ} :
    ¬ Ends (Building.buildNode ((session.through cache).parent
      ((session.through cache).fetch true (levels + 1)) chain directory) height location
        [("extends", .string reference)]) s result t := by
  -- on the levels of the walk: every merge puts a reference into the trap one level further down
  induction height generalizing location reference result t with
  | zero => exact Build.not_ends_unfinished
  | succ height ih =>
    obtain ⟨text, property, next, hcaches, hread, hnext⟩ := htrap _ hsnared
    have hparent : Ends ((session.through cache).parent
        ((session.through cache).fetch true (levels + 1)) chain directory reference) s
        (.ok [("properties", .object [(property, .object [("extends", .string next)])])]) s :=
      ends_parent_ok.mpr ⟨fun hmem => hchain _ hmem hsnared, text,
        ends_fetch_of_caches hcaches hread normalize_target, parseDocument_eq_ok.mpr hread⟩
    rw [Building.buildNode, Build.ends_bind_of_ok (Building.ends_prepare_of_properties hparent)]
    refine Build.not_ends_bind fun _ _ => ?_
    have hfind : Members.find? "properties" [("properties",
        .object [(property, .object [("extends", .string next)])]), ("type", .string "any")] =
          some (.object [(property, .object [("extends", .string next)])]) := rfl
    unfold Building.buildProperties
    rw [hfind]
    refine Build.not_ends_bind fun _ _ => ?_
    exact Build.not_ends_bind fun _ _ => ih hnext

/-- A document that only extends a name of a trap is never built. -/
theorem Trap.not_ends_getSchema (htrap : session.Trap cache s (Name.directory name) Snared)
    (hdocument : session.plain.document? () (Name.normalize name) =
      some [("extends", .string reference)])
    (hmissing : cache.get s (cacheKey (Name.normalize name)) = .ok none)
    (hsnared : Snared (session.plain.target (Name.directory name) reference))
    (hfree : ¬ Snared (Name.normalize name)) {result : Except SchemaError String} {t : σ} :
    ¬ Ends ((session.through cache).getSchema levels name) s result t := by
  intro h
  have hfound : Ends ((session.through cache).readCache (Name.normalize name)) s (.ok none) s :=
    ends_readCache_of_missing hmissing
  have hloaded : ∃ raw, Ends ((session.through cache).loadDocument (Name.normalize name)) s
      (.ok (raw, [("extends", .string reference)])) s := by
    have hstored : (session.through cache).document? s (Name.normalize name) =
        some [("extends", .string reference)] := by rw [document?_through, hdocument]
    obtain ⟨raw, hraw⟩ := document?_eq_some.mp hstored
    exact ⟨raw, ends_loadDocument.mpr ⟨hraw.symm, rfl⟩⟩
  obtain ⟨raw, hraw⟩ := hloaded
  -- with no level left below the document nothing is fetched at all, so two more are taken
  have hmore : Ends ((session.through cache).fetch true (levels + 1 + 1) [] name) s result t :=
    approximates_fetch (by omega) _ _ _ _ _ h
  rw [fetch] at hmore
  have hbuild := (Build.ends_bind_of_ok hraw).mp ((Build.ends_bind_of_ok hfound).mp hmore)
  refine Build.not_ends_bind (fun _ _ => ?_) hbuild
  rw [Name.directory_normalize]
  exact htrap.not_ends_buildNode (by simpa using hfree) hsnared

/-- Through a cache of any content a fetch ends, within the registry's levels, if no cached text
leads back to itself.  A document that extends into a trap of cached texts is never built, whatever
the levels. -/
theorem ends_or_runs_away (hcache : cache.Honest) (session : Session) (s : σ) :
    (∀ names keys, session.plain.StoredAmong () names → KeysAmong cache s keys →
      ¬ session.LeadsBack cache s → ∀ name, ∃ result t, ∀ levels,
        levelsFor names.length keys.length ≤ levels →
          Ends ((session.through cache).getSchema levels name) s result t) ∧
    ∀ name reference Snared,
      session.plain.document? () (Name.normalize name) = some [("extends", .string reference)] →
      cache.get s (cacheKey (Name.normalize name)) = .ok none →
      session.Trap cache s (Name.directory name) Snared →
      Snared (session.plain.target (Name.directory name) reference) →
      ¬ Snared (Name.normalize name) → ∀ levels result t,
        ¬ Ends ((session.through cache).getSchema levels name) s result t := by
  constructor
  · intro names keys hnames hkeys hnone name
    exact ends_getSchema_of_not_leadsBack hcache hnames hkeys hnone name
  · intro name reference Snared hdocument hmissing htrap hsnared hfree levels result t
    exact htrap.not_ends_getSchema hdocument hmissing hsnared hfree

/-- Two documents, of which the first extends a name that is only cached. -/
def heirs : Session :=
  ⟨lookupText [("b", "\x7b\"extends\":\"a\"\x7d"), ("c", "\x7b\"type\":\"string\"\x7d")], relative⟩

/-- A cache that holds one text under the key of that name. -/
def keeping (text : String) : MemoryStore :=
  MemoryStore.empty.insert (cacheKey "a") text.toUTF8

/-- A text whose property extends the other stored document. -/
def passing : String :=
  "\x7b\"properties\":\x7b\"x\":\x7b\"extends\":\"c\"\x7d\x7d\x7d"

/-- A text whose property extends its own name. -/
def returning : String :=
  "\x7b\"properties\":\x7b\"x\":\x7b\"extends\":\"a\"\x7d\x7d\x7d"

theorem eq_of_find?_keeping {key : String} {bytes : ByteArray}
    (h : (keeping text).find? key = some bytes) : key = cacheKey "a" ∧ bytes = text.toUTF8 := by
  by_cases hkey : key = cacheKey "a"
  · rw [hkey, keeping, MemoryStore.find?_insert, Option.some.injEq] at h
    exact ⟨hkey, h.symm⟩
  · rw [keeping, MemoryStore.find?_insert_of_ne hkey] at h
    simp [MemoryStore.empty, MemoryStore.find?] at h

theorem caches_keeping (h : Caches MemoryStore.store (keeping text) name reference) :
    cacheKey name = cacheKey "a" ∧ reference = text := by
  obtain ⟨bytes, hbytes, hdecode⟩ := h
  obtain ⟨hkey, rfl⟩ := eq_of_find?_keeping (Except.ok.inj hbytes)
  rw [Utf8.decode_toUTF8, Except.ok.injEq] at hdecode
  exact ⟨hkey, hdecode.symm⟩

theorem caches_returning : Caches MemoryStore.store (keeping returning) "a" returning :=
  ⟨returning.toUTF8, congrArg Except.ok MemoryStore.find?_insert, Utf8.decode_toUTF8 returning⟩

theorem keysAmong_keeping : KeysAmong MemoryStore.store (keeping text) [cacheKey "a"] :=
  fun _ _ h => List.mem_singleton.mpr (eq_of_find?_keeping (Except.ok.inj h)).1

theorem storedAmong_heirs : heirs.plain.StoredAmong () ["b", "c"] :=
  storedAmong_ofTexts

theorem document?_heirs :
    heirs.plain.document? () "b" = some [("extends", .string "a")] ∧
      heirs.plain.document? () "c" = some [("type", .string "string")] := by
  decide +kernel

/-- A tree with one property mentions what the property extends. -/
theorem mention_of_property {property target : String} (h : Node.Mentions [("properties",
    .object [(property, .object [("extends", .string target)])])] reference) :
    reference = target := by
  rcases Node.mentions_iff.mp h with hown | ⟨child, hchild, hbelow⟩
  · simp [Node.ownReferences, Members.find?] at hown
  · cases hchild with
    | @property children name hprops hfind =>
      obtain rfl : [(property, Value.object [("extends", .string target)])] = children := by
        simpa [Members.find?] using hprops
      obtain ⟨-, rfl⟩ : property = name ∧ [("extends", .string target)] = child := by
        simpa [Members.find?] using hfind
      rw [Node.mentions_iff_of_leaf rfl rfl] at hbelow
      exact List.mem_singleton.mp hbelow
    | item hfind => simp [Members.find?] at hfind
    | tupleItem hfind _ => simp [Members.find?] at hfind

theorem textRefers_passing (h : heirs.TextRefers passing name) : name = "c" := by
  obtain ⟨members, reference, source, document, hread, hmentions, hdocument, rfl⟩ := h
  have hpassing : Value.read passing = .ok (.object [("properties",
      .object [("x", .object [("extends", .string "c")])])]) := by decide +kernel
  rw [hpassing, Except.ok.injEq, Value.object.injEq] at hread
  subst hread
  obtain rfl := mention_of_property hmentions
  have hsource := exists_mem_of_document? storedAmong_heirs hdocument
  rcases List.mem_pair.mp hsource with rfl | rfl
  · decide +kernel
  · decide +kernel

/-- Whatever the second document leads to has its key. -/
theorem cacheKey_of_leads (h : Relation.ReflTransGen
    (heirs.Leads MemoryStore.store (keeping passing)) "c" name) : cacheKey name = cacheKey "c" := by
  have ha : cacheKey "a" ≠ cacheKey "c" := by decide +kernel
  have hb : cacheKey "b" ≠ cacheKey "c" := by decide +kernel
  induction h with
  | refl => rfl
  | @tail middle last _ hleads ih =>
    rcases hleads with ⟨document, hdocument, reference, hmentions, rfl⟩ | ⟨text, hcaches, -⟩ | hkey
    · rcases List.mem_pair.mp (exists_mem_of_document? storedAmong_heirs hdocument) with rfl | rfl
      · exact absurd ih hb
      · rw [document?_heirs.2, Option.some.injEq] at hdocument
        rw [← hdocument, Node.mentions_iff_of_leaf rfl rfl] at hmentions
        exact absurd hmentions List.not_mem_nil
    · exact absurd ((caches_keeping hcaches).1.symm.trans ih) ha
    · exact hkey.symm.trans ih

theorem not_leadsBack_passing : ¬ heirs.LeadsBack MemoryStore.store (keeping passing) := by
  rintro ⟨name, text, other, hcaches, hrefers, hpath⟩
  obtain ⟨hkey, rfl⟩ := caches_keeping hcaches
  obtain rfl := textRefers_passing hrefers
  have hkeys : cacheKey "a" ≠ cacheKey "c" := by decide +kernel
  exact hkeys (hkey.symm.trans (cacheKey_of_leads hpath))

theorem trap_returning : heirs.Trap MemoryStore.store (keeping returning) (Name.directory "b")
    (fun name => name = "a") := by
  rintro name rfl
  refine ⟨returning, "x", "a", caches_returning, ?_, ?_⟩
  · decide +kernel
  · decide +kernel

theorem heir_ends_or_runs_away :
    MemoryStore.store.Honest ∧ heirs.plain.StoredAmong () ["b", "c"] ∧
      KeysAmong MemoryStore.store (keeping passing) [cacheKey "a"] ∧
      ¬ heirs.LeadsBack MemoryStore.store (keeping passing) ∧
      (∃ result t, ∀ levels, levelsFor 2 1 ≤ levels →
        Ends ((heirs.through MemoryStore.store).getSchema levels "b") (keeping passing) result t) ∧
      heirs.Trap MemoryStore.store (keeping returning) (Name.directory "b")
        (fun name => name = "a") ∧
      ∀ levels result t, ¬ Ends ((heirs.through MemoryStore.store).getSchema levels "b")
        (keeping returning) result t := by
  obtain ⟨hends, -⟩ := ends_or_runs_away MemoryStore.honest heirs (keeping passing)
  obtain ⟨-, hruns⟩ := ends_or_runs_away MemoryStore.honest heirs (keeping returning)
  have hmissing : MemoryStore.store.get (keeping returning) (cacheKey (Name.normalize "b")) =
      .ok none := by decide +kernel
  have hnever := hruns "b" "a" (fun name => name = "a") (by decide +kernel) hmissing
    trap_returning (by decide +kernel) (by decide +kernel)
  exact ⟨MemoryStore.honest, storedAmong_heirs, keysAmong_keeping, not_leadsBack_passing,
    hends _ _ storedAmong_heirs keysAmong_keeping not_leadsBack_passing "b", trap_returning, hnever⟩

end Session
end Schemata
