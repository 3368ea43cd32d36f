import Schemata.Proofs.Registry.Session
import Schemata.Proofs.Registry.Termination

/-!
# Lookups without the cache

A fetch without a cache hands on, to every fetch that it makes for a parent, that there is none.
So neither the cache that a registry has, nor what it holds or whether it can be read, nor the
caching switch has a say in what is answered; and nothing is kept.
-/

namespace Schemata
namespace Registry

open Build (Ends)

variable {σ τ : Type} {r : Registry σ} {s : σ} {r' : Registry τ} {s' : τ} {levels : Nat}

theorem SameSource.symm (h : SameSource r s r' s') : SameSource r' s' r s :=
  ⟨h.documents.symm, h.resolve.symm⟩

/-- Two registries with the same documents and the same resolution answer every lookup without the
cache alike, text or error, whatever caches they have and whether or not caching is on; and both
stay in their states, the caches included.  Over finitely many documents there is an answer. -/
theorem uncached_independent (hsame : SameSource r s r' s') (name : String) :
    (∀ levels result t, Ends (r.getSchemaUncached levels name) s result t →
      t = s ∧ Ends (r'.getSchemaUncached levels name) s' result s') ∧
    (∀ levels result t', Ends (r'.getSchemaUncached levels name) s' result t' →
      t' = s' ∧ Ends (r.getSchemaUncached levels name) s result s) ∧
    ∀ names, r.StoredAmong s names → ∃ result, ∀ levels, levelsFor names.length 0 ≤ levels →
      Ends (r.getSchemaUncached levels name) s result s ∧
        Ends (r'.getSchemaUncached levels name) s' result s' := by
  refine ⟨?_, ?_, ?_⟩
  · intro levels result t h
    exact ⟨(reads_fetch _ _ _ _ _ h).1, ends_fetch_of_sameSource hsame h⟩
  · intro levels result t' h
    exact ⟨(reads_fetch _ _ _ _ _ h).1, ends_fetch_of_sameSource hsame.symm h⟩
  · intro names hnames
    obtain ⟨result, hends, -⟩ := finishes_getSchemaUncached hnames (Nat.le_refl _) name
    refine ⟨result, ?_⟩
    intro levels hlevels
    have hmore : Ends (r.getSchemaUncached levels name) s result s :=
      approximates_fetch hlevels _ _ _ _ _ hends
    exact ⟨hmore, ends_fetch_of_sameSource hsame hmore⟩

end Registry

namespace Session

open Build (Ends)
open Registry

/-- A cache whose entry for a parent is no JSON. -/
def corrupt : MemoryStore :=
  MemoryStore.empty.insert (cacheKey "b") "\x7bbroken".toUTF8

/-- Through the cache the entry is met. -/
theorem exists_ends_corrupt :
    ∃ t, Ends ((family.registry true).getSchema 4 "a") corrupt
      (.error (.brokenExtend "b" (.brokenCache "b" (cacheKey "b")))) t := by
  have hrun : (StateT.run (ExceptT.run ((family.registry true).getSchema 4 "a")) corrupt).map
      Prod.fst = some (.error (.brokenExtend "b" (.brokenCache "b" (cacheKey "b")))) := by
    decide +kernel
  obtain ⟨⟨result, t⟩, ht, rfl⟩ := Option.map_eq_some_iff.mp hrun
  exact ⟨t, ht⟩

theorem corrupt_entry_is_ignored :
    SameSource family.plain () (family.registry true) corrupt ∧
      Ends (family.plain.getSchemaUncached 4 "a") () (.ok "\x7b\"type\":\"string\"\x7d") () ∧
      Ends ((family.registry true).getSchemaUncached 4 "a") corrupt
        (.ok "\x7b\"type\":\"string\"\x7d") corrupt ∧
      family.plain.StoredAmong () ["a", "b"] ∧
      (∃ result, ∀ levels, levelsFor 2 0 ≤ levels →
        Ends ((family.registry true).getSchemaUncached levels "a") corrupt result corrupt) ∧
      ∃ t, Ends ((family.registry true).getSchema 4 "a") corrupt
        (.error (.brokenExtend "b" (.brokenCache "b" (cacheKey "b")))) t := by
  have hsame : SameSource family.plain () (family.registry true) corrupt := ⟨rfl, rfl⟩
  have hnames : family.plain.StoredAmong () ["a", "b"] := storedAmong_ofTexts
  obtain ⟨hright, -, hfinite⟩ := uncached_independent hsame "a"
  obtain ⟨result, hends⟩ := hfinite _ hnames
  exact ⟨hsame, ends_family, (hright 4 _ _ ends_family).2, hnames,
    ⟨result, fun levels hlevels => (hends levels hlevels).2⟩, exists_ends_corrupt⟩

end Session
end Schemata
