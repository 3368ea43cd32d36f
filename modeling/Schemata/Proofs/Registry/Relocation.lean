import Schemata.Proofs.Name.Below
import Schemata.Proofs.Registry.Answer
import Schemata.Proofs.Store.Memory

/-!
# Moving a family of documents

References are relative to the directory of their document.  When all documents are moved into a
directory, the target of each reference moves along, as long as it is a stored document: a
reference that leaves the family leads to none.  So the build of a moved document takes the same
steps, under a chain of moved names, and ends with the same text.
-/

namespace Schemata

namespace MemoryStore

/-- The same documents, each under its name in the directory. -/
def moveBelow (directory : String) (m : MemoryStore) : MemoryStore :=
  { m with entries := m.entries.map fun entry => (Name.below directory entry.1, entry.2) }

theorem find?_moveBelow {directory name : String} {m : MemoryStore} :
    (m.moveBelow directory).find? (Name.below directory name) = m.find? name := by
  obtain ⟨entries, readOnly⟩ := m
  unfold moveBelow find?
  induction entries with
  | nil => rfl
  | cons entry rest ih =>
    obtain ⟨key, bytes⟩ := entry
    simp only [List.map_cons, List.lookup_cons] at ih ⊢
    by_cases hkey : name = key
    · simp [hkey]
    · have hbelow : Name.below directory name ≠ Name.below directory key :=
        fun h => hkey (Name.below_injective directory h)
      rw [beq_eq_false_iff_ne.mpr hkey, beq_eq_false_iff_ne.mpr hbelow]
      exact ih

end MemoryStore

namespace Registry

open Build (Ends)
open Json (Members Value)
open Name (Plain below)

/-- Every stored document has a plain name, and is stored below the directory as well. -/
structure Moved (directory : String) (documents moved : String → Lookup) : Prop where
  plain : ∀ name bytes, documents name = .ok (some bytes) → Plain name
  stored : ∀ name bytes, documents name = .ok (some bytes) →
    moved (below directory name) = .ok (some bytes)

theorem moved_moveBelow {m : MemoryStore} (hkeys : ∀ entry ∈ m.entries, Plain entry.1)
    (directory : String) :
    Moved directory (MemoryStore.store.get m) (MemoryStore.store.get (m.moveBelow directory)) where
  plain := by
    intro name bytes h
    exact hkeys (name, bytes) (MemoryStore.mem_of_find? (Except.ok.inj h))
  stored := by
    intro name bytes h
    exact (congrArg Except.ok MemoryStore.find?_moveBelow).trans h

/-- The registry that reads its documents so and resolves references by the directory. -/
abbrev reading (documents : String → Lookup) : Registry Unit :=
  .ofDocuments fun _ => documents

section Moving

variable {directory : String} {documents moved : String → Lookup} {name reference text : String}
  {levels : Nat} {chain : List String} {document : Members}
  (hmoved : Moved directory documents moved) (hdirectory : Plain directory)

include hmoved in
theorem Moved.document? (h : (reading documents).document? () name = some document) :
    Plain name ∧ (reading moved).document? () (below directory name) = some document := by
  obtain ⟨bytes, -, hbytes, -⟩ := exists_parse_of_document? h
  have hsame : (reading moved).document? () (below directory name) =
      (reading documents).document? () name :=
    document?_of_bytes hbytes (hmoved.stored name bytes hbytes)
  exact ⟨hmoved.plain name bytes hbytes, hsame.trans h⟩

/-- The target of a reference, unless it leaves the family, moves along with its document. -/
theorem target_below (hdirectory : Plain directory) (hname : Plain name)
    (h : Plain ((reading documents).target (Name.directory name) reference)) :
    (reading moved).target (Name.directory (below directory name)) reference =
      below directory ((reading documents).target (Name.directory name) reference) := by
  have htarget : ∀ (documents : String → Lookup) above,
      (reading documents).target above reference = Name.join above reference :=
    fun _ above => Name.normalize_join above reference
  rw [htarget] at h ⊢
  rw [htarget]
  exact Name.join_directory_below hdirectory hname h

include hmoved hdirectory in
/-- A parent that is answered is answered after the move as well. -/
theorem ends_parents_moved {members : Members} (hname : Plain name)
    (hfetch : ∀ {other parentText},
      Ends ((reading documents).fetch false levels (chain ++ [name]) other) () (.ok parentText) () →
        Ends ((reading moved).fetch false levels ((chain ++ [name]).map (below directory))
          (below directory other)) () (.ok parentText) ())
    (h : Ends ((reading documents).parents levels chain name reference) () (.ok members) ()) :
    Ends ((reading moved).parents levels (chain.map (below directory)) (below directory name)
      reference) () (.ok members) () := by
  obtain ⟨hmem, parentText, hparent, hparse⟩ := ends_parent_ok.mp h
  obtain ⟨document, hdocument⟩ := exists_document_of_ends hparent
  rw [normalize_target] at hdocument
  have htarget : (reading moved).target (Name.directory (below directory name)) reference =
      below directory ((reading documents).target (Name.directory name) reference) :=
    target_below hdirectory hname (hmoved.document? hdocument).1
  have hchain : chain.map (below directory) ++ [below directory name] =
      (chain ++ [name]).map (below directory) := by
    rw [List.map_append, List.map_singleton]
  refine ends_parent_ok.mpr ?_
  rw [htarget, hchain, List.mem_map_of_injective (Name.below_injective directory)]
  exact ⟨hmem, parentText, hfetch hparent, parseDocument_eq_ok.mpr (parseDocument_eq_ok.mp hparse)⟩

include hmoved hdirectory in
/-- A document that is moved is fetched like the original. -/
theorem ends_fetch_moved
    (h : Ends ((reading documents).fetch false levels chain name) () (.ok text) ()) :
    Ends ((reading moved).fetch false levels (chain.map (below directory)) (below directory name))
      () (.ok text) () := by
  induction levels generalizing chain name text with
  | zero => exact absurd h Build.not_ends_unfinished
  | succ levels ih =>
    obtain ⟨document, hdocument, built, hbuilt, rfl⟩ := ends_fetch_uncached_ok.mp h
    obtain ⟨hplain, hdocument'⟩ := hmoved.document? hdocument
    have hnormal : Name.normalize (below directory name) =
        below directory (Name.normalize name) := Name.normalize_below hdirectory hplain
    have hnode : (Simulation.succeeding () fun _ => True).Relates Resolved
        (Building.buildNode ((reading documents).parents levels chain (Name.normalize name)) levels
          [] document)
        fun _ => Building.buildNode ((reading moved).parents levels (chain.map (below directory))
          (below directory (Name.normalize name))) levels [] document := by
      refine Simulation.buildNode _ (Nat.le_refl levels) (unique_of_document? hdocument) ?_
      intro reference hmentions members s' hparent
      have hresolved := (reads_parents levels chain _ reference _ _ hparent).2 members rfl
      refine ⟨rfl, hresolved, fun _ _ => ⟨(), trivial, ?_⟩⟩
      exact ends_parents_moved hmoved hdirectory hplain ih hparent
    obtain ⟨-, -, hright⟩ := hnode built () hbuilt
    obtain ⟨_, -, hends⟩ := hright () trivial
    refine ends_fetch_uncached_ok.mpr ?_
    rw [hnormal]
    exact ⟨document, hdocument', built, hends, rfl⟩

end Moving

/-- A family of documents with plain names can be moved into a directory: what answers a text there
answers the same text below the directory. -/
theorem family_can_be_moved {directory : String} {documents moved : String → Lookup}
    (hmoved : Moved directory documents moved) (hdirectory : Plain directory) {levels : Nat}
    {name text : String}
    (h : Ends ((reading documents).getSchemaUncached levels name) () (.ok text) ()) :
    Ends ((reading moved).getSchemaUncached levels (below directory name)) () (.ok text) () :=
  ends_fetch_moved hmoved hdirectory h

/-- A document at the top level, and one in a directory that leads to it. -/
def questionnaire : MemoryStore :=
  ⟨[("base", "\x7b\"type\":\"string\"\x7d".toUTF8),
    ("forms/list", "\x7b\"type\":\"array\",\"items\":\x7b\"extends\":\"../base\"\x7d\x7d".toUTF8)],
    false⟩

theorem plain_questionnaire : ∀ entry ∈ questionnaire.entries, Plain entry.1 := by
  intro entry hentry
  have hcases : entry.1 = "base" ∨ entry.1 = "forms/list" := by
    rcases List.mem_cons.mp hentry with rfl | hrest
    · exact Or.inl rfl
    · rw [List.mem_singleton.mp hrest]
      exact Or.inr rfl
  rcases hcases with hname | hname <;> rw [hname]
  · exact ⟨by decide, by decide, by decide, by decide⟩
  · exact ⟨by decide, by decide, by decide, by decide⟩

theorem ends_questionnaire : Ends ((reading (MemoryStore.store.get questionnaire)).getSchemaUncached
    6 "forms/list") ()
    (.ok "\x7b\"type\":\"array\",\"items\":\x7b\"type\":\"string\"\x7d\x7d") () := by
  unfold Ends
  decide +kernel

theorem questionnaire_moves : (∀ entry ∈ questionnaire.entries, Plain entry.1) ∧
    Plain "team/v1" ∧
    Ends ((reading (MemoryStore.store.get (questionnaire.moveBelow "team/v1"))).getSchemaUncached 6
      "team/v1/forms/list") () (.ok
        "\x7b\"type\":\"array\",\"items\":\x7b\"type\":\"string\"\x7d\x7d") () := by
  have hdirectory : Plain "team/v1" :=
    ⟨by decide, by decide +kernel, by decide +kernel, by decide +kernel⟩
  have hname : below "team/v1" "forms/list" = "team/v1/forms/list" := by decide +kernel
  have hmoved := family_can_be_moved (moved_moveBelow plain_questionnaire "team/v1") hdirectory
    ends_questionnaire
  rw [hname] at hmoved
  exact ⟨plain_questionnaire, hdirectory, hmoved⟩

end Registry
end Schemata
