import Schemata.Store.Memory

/-!
# Entries of the store in memory

A key that is new goes behind all entries, and a key that is there already keeps its place.
-/

namespace Schemata.MemoryStore

variable {m : MemoryStore} {key : String} {bytes : ByteArray}

theorem mem_of_find? (h : m.find? key = some bytes) : (key, bytes) ∈ m.entries := by
  obtain ⟨before, after, hentries, -⟩ := List.lookup_eq_some_iff.mp h
  rw [hentries]
  exact List.mem_append_right before List.mem_cons_self

theorem replaceEntry_of_lookup_eq_none {entries : List (String × ByteArray)}
    (h : entries.lookup key = none) :
    replaceEntry key bytes entries = entries ++ [(key, bytes)] := by
  induction entries with
  | nil => rfl
  | cons entry rest ih =>
    obtain ⟨other, old⟩ := entry
    have hne : other ≠ key := by
      rintro rfl
      simp at h
    have hrest : rest.lookup key = none := by
      have hbeq : (key == other) = false := beq_eq_false_iff_ne.mpr hne.symm
      rwa [List.lookup_cons, hbeq] at h
    rw [replaceEntry, if_neg hne, ih hrest, List.cons_append]

theorem replaceEntry_of_lookup_eq_some {entries : List (String × ByteArray)}
    (h : entries.lookup key = some bytes) : replaceEntry key bytes entries = entries := by
  induction entries with
  | nil => simp at h
  | cons entry rest ih =>
    obtain ⟨other, old⟩ := entry
    by_cases heq : other = key
    · subst heq
      rw [List.lookup_cons_self, Option.some.injEq] at h
      rw [replaceEntry, if_pos rfl, h]
    · have hbeq : (key == other) = false := beq_eq_false_iff_ne.mpr (Ne.symm heq)
      rw [List.lookup_cons, hbeq] at h
      rw [replaceEntry, if_neg heq, ih h]

theorem entries_insert_of_find?_eq_none (h : m.find? key = none) :
    (m.insert key bytes).entries = m.entries ++ [(key, bytes)] :=
  replaceEntry_of_lookup_eq_none h

theorem insert_of_find?_eq_some (h : m.find? key = some bytes) : m.insert key bytes = m := by
  have hentries : replaceEntry key bytes m.entries = m.entries := replaceEntry_of_lookup_eq_some h
  unfold insert
  rw [hentries]

theorem mem_replaceEntry {entries : List (String × ByteArray)} {entry : String × ByteArray}
    (h : entry ∈ replaceEntry key bytes entries) : entry ∈ entries ∨ entry = (key, bytes) := by
  induction entries with
  | nil => exact Or.inr (List.mem_singleton.mp h)
  | cons first rest ih =>
    obtain ⟨other, old⟩ := first
    by_cases heq : other = key
    · rw [replaceEntry, if_pos heq] at h
      rcases List.mem_cons.mp h with hnew | hrest
      · exact Or.inr (heq ▸ hnew)
      · exact Or.inl (List.mem_cons_of_mem _ hrest)
    · rw [replaceEntry, if_neg heq] at h
      rcases List.mem_cons.mp h with hfirst | hrest
      · exact Or.inl (hfirst ▸ List.mem_cons_self)
      · exact (ih hrest).imp_left (List.mem_cons_of_mem _)

theorem lookup_replaceEntry {entries : List (String × ByteArray)} :
    (replaceEntry key bytes entries).lookup key = some bytes := by
  induction entries with
  | nil => exact List.lookup_cons_self
  | cons first rest ih =>
    obtain ⟨other, old⟩ := first
    by_cases heq : other = key
    · subst heq
      rw [replaceEntry, if_pos rfl, List.lookup_cons_self]
    · have hbeq : (key == other) = false := beq_eq_false_iff_ne.mpr (Ne.symm heq)
      rw [replaceEntry, if_neg heq, List.lookup_cons, hbeq, ih]

theorem find?_insert : (m.insert key bytes).find? key = some bytes :=
  lookup_replaceEntry

theorem lookup_replaceEntry_of_ne {entries : List (String × ByteArray)} {other : String}
    (hne : other ≠ key) : (replaceEntry key bytes entries).lookup other = entries.lookup other := by
  induction entries with
  | nil => rw [replaceEntry, List.lookup_cons, beq_eq_false_iff_ne.mpr hne]
  | cons first rest ih =>
    obtain ⟨k, old⟩ := first
    by_cases heq : k = key
    · subst heq
      have hbeq : (other == k) = false := beq_eq_false_iff_ne.mpr hne
      rw [replaceEntry, if_pos rfl, List.lookup_cons, List.lookup_cons, hbeq]
    · rw [replaceEntry, if_neg heq, List.lookup_cons, List.lookup_cons, ih]

theorem find?_insert_of_ne {other : String} (hne : other ≠ key) :
    (m.insert key bytes).find? other = m.find? other :=
  lookup_replaceEntry_of_ne hne

theorem mem_insert {entry : String × ByteArray} (h : entry ∈ (m.insert key bytes).entries) :
    entry ∈ m.entries ∨ entry = (key, bytes) :=
  mem_replaceEntry h

end Schemata.MemoryStore
