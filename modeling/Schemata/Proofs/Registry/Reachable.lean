import Schemata.Proofs.Registry.Session
import Schemata.Proofs.Registry.Termination

/-!
# Reachable documents

A fetch without a cache reads the documents that references lead to from its name, and no others:
parents bring no references along, so whatever is merged on the way, the references met are those
of stored documents.  Two sources that agree on the reachable documents answer the name alike, and
it ends as soon as finitely many documents are reachable.
-/

namespace Schemata
namespace Registry

open Build (Ends)

variable {σ τ : Type} {r : Registry σ} {s : σ} {r' : Registry τ} {s' : τ} {name other : String}

open Classical in
/-- The documents that a name leads to, and no others. -/
noncomputable def reachableFrom (r : Registry σ) (s : σ) (name : String) : Registry Unit where
  documents := fun _ other =>
    if Relation.ReflTransGen (r.Refers s) name other then r.documents s other else .ok none
  cache := none
  resolve := r.resolve
  caching := false

theorem agreeFrom_reachableFrom : AgreeFrom r s (r.reachableFrom s name) () name := by
  constructor
  · rfl
  · intro other hreach
    exact if_pos hreach

theorem storedAmong_reachableFrom {names : List String}
    (hnames : ∀ other bytes, Relation.ReflTransGen (r.Refers s) name other →
      r.documents s other = .ok (some bytes) → other ∈ names) :
    (r.reachableFrom s name).StoredAmong () names := by
  intro other bytes h
  by_cases hreach : Relation.ReflTransGen (r.Refers s) name other
  · apply hnames other bytes hreach
    rwa [agreeFrom_reachableFrom.documents other hreach] at h
  · have hnone : (r.reachableFrom s name).documents () other = .ok none := if_neg hreach
    simp [hnone] at h

/-- A name that leads to finitely many stored documents is answered, however many there are. -/
theorem exists_ends_of_reachable {names : List String}
    (hnames : ∀ other bytes, Relation.ReflTransGen (r.Refers s) (Name.normalize name) other →
      r.documents s other = .ok (some bytes) → other ∈ names) :
    ∃ result, ∀ levels, levelsFor names.length 0 ≤ levels →
      Ends (r.getSchemaUncached levels name) s result s := by
  have hagree : AgreeFrom r s (r.reachableFrom s (Name.normalize name)) () (Name.normalize name) :=
    agreeFrom_reachableFrom
  obtain ⟨result, hends, -⟩ :=
    finishes_getSchemaUncached (storedAmong_reachableFrom hnames) (Nat.le_refl _) name
  refine ⟨result, ?_⟩
  intro levels hlevels
  apply ends_fetch_of_agreeFrom hagree.symm
  exact approximates_fetch hlevels _ _ _ _ _ hends

/-- If two sources of documents give the same answer, be it bytes, absence or a failure, for every
name that references lead to from the given one, then the given name has the same result over both,
text or error; and if finitely many documents are reachable, it has one. -/
theorem only_reachable_documents_matter
    (hagree : AgreeFrom r s r' s' (Name.normalize name)) :
    (∀ levels result t, Ends (r.getSchemaUncached levels name) s result t →
      t = s ∧ Ends (r'.getSchemaUncached levels name) s' result s') ∧
    (∀ levels result t', Ends (r'.getSchemaUncached levels name) s' result t' →
      t' = s' ∧ Ends (r.getSchemaUncached levels name) s result s) ∧
    ∀ names : List String,
      (∀ other bytes, Relation.ReflTransGen (r.Refers s) (Name.normalize name) other →
        r.documents s other = .ok (some bytes) → other ∈ names) →
      ∃ result, ∀ levels, levelsFor names.length 0 ≤ levels →
        Ends (r.getSchemaUncached levels name) s result s ∧
          Ends (r'.getSchemaUncached levels name) s' result s' := by
  refine ⟨?_, ?_, ?_⟩
  · intro levels result t h
    exact ⟨(reads_fetch _ _ _ _ _ h).1, ends_fetch_of_agreeFrom hagree h⟩
  · intro levels result t' h
    exact ⟨(reads_fetch _ _ _ _ _ h).1, ends_fetch_of_agreeFrom hagree.symm h⟩
  · intro names hnames
    obtain ⟨result, hends⟩ := exists_ends_of_reachable hnames
    refine ⟨result, ?_⟩
    intro levels hlevels
    exact ⟨hends levels hlevels, ends_fetch_of_agreeFrom hagree (hends levels hlevels)⟩

end Registry

namespace Session

open Build (Ends)
open Registry

/-- The documents of the family among others, one of which is no JSON and one of which cannot be
read. -/
def littered : Registry Unit :=
  .ofDocuments fun _ name =>
    if name = "c" then .error (.unreadable "c" "disk failure")
    else if name = "d" then .ok (some "\x7bbroken".toUTF8)
    else family.documents name

theorem agreeFrom_littered : AgreeFrom family.plain () littered () (Name.normalize "a") := by
  have hnormal : Name.normalize "a" = "a" := by decide +kernel
  rw [hnormal]
  constructor
  · rfl
  · intro other hreach
    rcases family_reaches hreach with rfl | rfl
    · rfl
    · rfl

theorem litter_is_not_read :
    AgreeFrom family.plain () littered () (Name.normalize "a") ∧
      littered.documents () "d" = .ok (some "\x7bbroken".toUTF8) ∧
      family.plain.documents () "d" = .ok none ∧
      Ends (littered.getSchemaUncached 4 "a") () (.ok "\x7b\"type\":\"string\"\x7d") () ∧
      ∃ result, ∀ levels, levelsFor 2 0 ≤ levels →
        Ends (littered.getSchemaUncached levels "a") () result () := by
  obtain ⟨hright, -, hfinite⟩ := only_reachable_documents_matter agreeFrom_littered
  have hnames : ∀ other bytes,
      Relation.ReflTransGen (family.plain.Refers ()) (Name.normalize "a") other →
        family.plain.documents () other = .ok (some bytes) → other ∈ ["a", "b"] := by
    intro other bytes _ hstored
    exact storedAmong_ofTexts other bytes hstored
  obtain ⟨result, hends⟩ := hfinite _ hnames
  refine ⟨agreeFrom_littered, rfl, rfl, (hright 4 _ _ ends_family).2, result, ?_⟩
  intro levels hlevels
  exact (hends levels hlevels).2

end Session
end Schemata
