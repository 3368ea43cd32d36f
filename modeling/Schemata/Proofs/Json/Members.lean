import Schemata.Json.Value

/-!
# Looking up the members of an object

Every operation on members is described by what `find?` answers afterwards.  Objects that were
read hold each key once; `UniqueKeys` says so, and it is what makes erasing a key by moving the
last member into the gap invisible to `find?`.
-/

namespace Schemata.Json.Members

variable {members : Members} {key other : String} {value : Value}

/-- Every key occurs once. -/
def UniqueKeys (members : Members) : Prop :=
  (Members.keys members).Nodup

/-! ## Lookups -/

@[simp] theorem find?_nil : Members.find? key [] = none :=
  rfl

theorem find?_cons {k : String} {v : Value} {rest : Members} :
    Members.find? key ((k, v) :: rest) = if k = key then some v else Members.find? key rest :=
  rfl

theorem find?_append {front back : Members} :
    Members.find? key (front ++ back) =
      (Members.find? key front).or (Members.find? key back) := by
  induction front with
  | nil => rfl
  | cons entry front ih =>
    obtain ⟨k, v⟩ := entry
    rw [List.cons_append, find?_cons, find?_cons]
    split
    · rfl
    · exact ih

theorem mem_of_find? (h : Members.find? key members = some value) :
    (key, value) ∈ members := by
  induction members with
  | nil => simp at h
  | cons entry rest ih =>
    obtain ⟨k, v⟩ := entry
    rw [find?_cons] at h
    split at h
    · case isTrue hk =>
      simp only [Option.some.injEq] at h
      subst hk h
      exact List.mem_cons_self
    · exact List.mem_cons_of_mem _ (ih h)

theorem find?_eq_none_iff :
    Members.find? key members = none ↔ key ∉ Members.keys members := by
  induction members with
  | nil => simp [Members.keys]
  | cons entry rest ih =>
    obtain ⟨k, v⟩ := entry
    rw [find?_cons]
    by_cases hk : k = key
    · simp [hk, Members.keys]
    · rw [if_neg hk, ih]
      simp [Members.keys, Ne.symm hk]

theorem mem_keys_of_find? (h : Members.find? key members = some value) :
    key ∈ Members.keys members :=
  List.mem_map_of_mem (mem_of_find? h)

theorem exists_of_mem_keys (h : key ∈ Members.keys members) :
    ∃ value, Members.find? key members = some value := by
  cases hfind : Members.find? key members with
  | none => exact absurd h (find?_eq_none_iff.mp hfind)
  | some value => exact ⟨value, rfl⟩

theorem find?_of_mem (hu : UniqueKeys members) (h : (key, value) ∈ members) :
    Members.find? key members = some value := by
  induction members with
  | nil => simp at h
  | cons entry rest ih =>
    obtain ⟨k, v⟩ := entry
    have hcons : k ∉ Members.keys rest ∧ UniqueKeys rest := List.nodup_cons.mp hu
    rw [find?_cons]
    rcases List.mem_cons.mp h with heq | hrest
    · simp only [Prod.mk.injEq] at heq
      rw [if_pos heq.1.symm, heq.2]
    · have hk : k ≠ key := by
        rintro rfl
        exact hcons.1 (List.mem_map.mpr ⟨(k, value), hrest, rfl⟩)
      rw [if_neg hk]
      exact ih hcons.2 hrest

theorem mem_iff_find? (hu : UniqueKeys members) :
    (key, value) ∈ members ↔ Members.find? key members = some value :=
  ⟨find?_of_mem hu, mem_of_find?⟩

/-- Whatever value a member has, the same is found under all other keys. -/
theorem find?_middle {front back : Members} {k : String} {v w : Value} :
    Members.find? key (front ++ (k, v) :: back) = Members.find? key (front ++ (k, w) :: back) ∨
      Members.find? key (front ++ (k, v) :: back) = some v ∧
        Members.find? key (front ++ (k, w) :: back) = some w := by
  rw [find?_append, find?_append, find?_cons, find?_cons]
  cases Members.find? key front with
  | some u => exact Or.inl rfl
  | none =>
    by_cases hk : k = key
    · simp [hk]
    · simp [hk]

/-- A filter on keys hides the members whose keys it refuses. -/
theorem find?_filter (p : String → Bool) :
    Members.find? key (members.filter fun entry => p entry.1) =
      if p key then Members.find? key members else none := by
  induction members with
  | nil => simp
  | cons entry rest ih =>
    obtain ⟨k, v⟩ := entry
    by_cases hp : p k
    · rw [List.filter_cons_of_pos (by simpa using hp), find?_cons, find?_cons, ih]
      by_cases hk : k = key
      · simp [hk, hk ▸ hp]
      · simp [hk]
    · rw [List.filter_cons_of_neg (by simpa using hp), find?_cons, ih]
      by_cases hk : k = key
      · simp [hk ▸ hp]
      · simp [hk]

/-- Members are determined by their keys and by what is found under them. -/
theorem eq_of_find? {others : Members} (hkeys : Members.keys members = Members.keys others)
    (hu : UniqueKeys members)
    (hfind : ∀ key, Members.find? key members = Members.find? key others) :
    members = others := by
  induction members generalizing others with
  | nil => exact (List.map_eq_nil_iff.mp hkeys.symm).symm
  | cons entry rest ih =>
    obtain ⟨k, v⟩ := entry
    cases others with
    | nil => simp [Members.keys] at hkeys
    | cons other others =>
      obtain ⟨k', w⟩ := other
      have hcons : k = k' ∧ Members.keys rest = Members.keys others := List.cons.inj hkeys
      obtain ⟨rfl, hrest⟩ := hcons
      have hnot : k ∉ Members.keys rest ∧ UniqueKeys rest := List.nodup_cons.mp hu
      have hvalue : v = w := by simpa [find?_cons] using hfind k
      have hothers : rest = others := by
        refine ih hrest hnot.2 fun key => ?_
        by_cases hkey : k = key
        · subst hkey
          rw [find?_eq_none_iff.mpr hnot.1, find?_eq_none_iff.mpr (hrest ▸ hnot.1)]
        · simpa [find?_cons, hkey] using hfind key
      rw [hvalue, hothers]

/-! ## Putting members in -/

theorem find?_set :
    Members.find? other (Members.set key value members) =
      if key = other then some value else Members.find? other members := by
  induction members with
  | nil => rfl
  | cons entry rest ih =>
    obtain ⟨k, v⟩ := entry
    rw [Members.set]
    by_cases hk : k = key
    · rw [if_pos hk, find?_cons, find?_cons, hk]
      split <;> rfl
    · rw [if_neg hk, find?_cons, find?_cons, ih]
      by_cases hother : k = other
      · rw [if_pos hother, if_neg (fun h => hk (hother.trans h.symm))]
        simp [hother]
      · simp [hother]

theorem keys_set_of_has (h : key ∈ Members.keys members) :
    Members.keys (Members.set key value members) = Members.keys members := by
  induction members with
  | nil => simp [Members.keys] at h
  | cons entry rest ih =>
    obtain ⟨k, v⟩ := entry
    rw [Members.set]
    by_cases hk : k = key
    · rw [if_pos hk]
      rfl
    · rw [if_neg hk]
      have hrest : key ∈ Members.keys rest := by
        simpa [Members.keys, Ne.symm hk] using h
      have hkeys := ih hrest
      simp only [Members.keys, List.map_cons] at hkeys ⊢
      rw [hkeys]

theorem set_of_not_has (h : key ∉ Members.keys members) :
    Members.set key value members = members ++ [(key, value)] := by
  induction members with
  | nil => rfl
  | cons entry rest ih =>
    obtain ⟨k, v⟩ := entry
    simp only [Members.keys, List.map_cons, List.mem_cons, not_or] at h
    rw [Members.set, if_neg (Ne.symm h.1), ih h.2]
    rfl

/-- Putting in what is there changes nothing. -/
theorem set_of_find? (h : Members.find? key members = some value) :
    Members.set key value members = members := by
  induction members with
  | nil => simp at h
  | cons entry rest ih =>
    obtain ⟨k, v⟩ := entry
    rw [find?_cons] at h
    rw [Members.set]
    by_cases hk : k = key
    · rw [if_pos hk, Option.some.injEq] at h
      rw [if_pos hk, h]
    · rw [if_neg hk] at h
      rw [if_neg hk, ih h]

theorem uniqueKeys_append (hu : UniqueKeys members) (h : key ∉ Members.keys members) :
    UniqueKeys (members ++ [(key, value)]) := by
  unfold UniqueKeys Members.keys at *
  rw [List.map_append, List.nodup_append]
  refine ⟨hu, by simp, ?_⟩
  intro a ha b hb
  simp only [List.map_cons, List.map_nil, List.mem_singleton] at hb
  subst hb
  rintro rfl
  exact h ha

theorem uniqueKeys_set (hu : UniqueKeys members) :
    UniqueKeys (Members.set key value members) := by
  by_cases h : key ∈ Members.keys members
  · unfold UniqueKeys
    rw [keys_set_of_has h]
    exact hu
  · rw [set_of_not_has h]
    exact uniqueKeys_append hu h

theorem mem_set {entry : String × Value} (h : entry ∈ Members.set key value members) :
    entry = (key, value) ∨ entry ∈ members := by
  induction members with
  | nil => exact Or.inl (List.mem_singleton.mp h)
  | cons first rest ih =>
    obtain ⟨k, v⟩ := first
    rw [Members.set] at h
    split at h
    · case isTrue hk =>
      subst hk
      rcases List.mem_cons.mp h with hfirst | hrest
      · exact Or.inl hfirst
      · exact Or.inr (List.mem_cons_of_mem _ hrest)
    · rcases List.mem_cons.mp h with hfirst | hrest
      · exact Or.inr (hfirst ▸ List.mem_cons_self)
      · exact (ih hrest).imp_right (List.mem_cons_of_mem _)

theorem addMissing_of_mem (h : key ∈ Members.keys members) :
    Members.addMissing members key value = members := by
  rw [Members.addMissing, if_pos]
  rw [Members.has, ← Option.not_isNone, Bool.not_eq_true', Option.isNone_eq_false_iff,
    ← Option.ne_none_iff_isSome]
  exact fun hnone => find?_eq_none_iff.mp hnone h

theorem addMissing_of_not_mem (h : key ∉ Members.keys members) :
    Members.addMissing members key value = members ++ [(key, value)] := by
  rw [Members.addMissing, if_neg]
  rw [Members.has, find?_eq_none_iff.mpr h]
  decide

theorem find?_addMissing :
    Members.find? other (Members.addMissing members key value) =
      (Members.find? other members).or (if key = other then some value else none) := by
  by_cases h : key ∈ Members.keys members
  · rw [addMissing_of_mem h]
    by_cases hother : key = other
    · cases hfind : Members.find? other members with
      | none => exact absurd (hother ▸ h) (find?_eq_none_iff.mp hfind)
      | some v => rfl
    · rw [if_neg hother, Option.or_none]
  · rw [addMissing_of_not_mem h, find?_append]
    rfl

theorem uniqueKeys_addMissing (hu : UniqueKeys members) :
    UniqueKeys (Members.addMissing members key value) := by
  by_cases h : key ∈ Members.keys members
  · rw [addMissing_of_mem h]
    exact hu
  · rw [addMissing_of_not_mem h]
    exact uniqueKeys_append hu h

theorem mem_addMissing {entry : String × Value}
    (h : entry ∈ Members.addMissing members key value) :
    entry = (key, value) ∨ entry ∈ members := by
  by_cases hkey : key ∈ Members.keys members
  · rw [addMissing_of_mem hkey] at h
    exact Or.inr h
  · rw [addMissing_of_not_mem hkey] at h
    exact (List.mem_append.mp h).symm.imp_left List.mem_singleton.mp

/-! ## Taking members out -/

/-- Erasing a key permutes the members into those that do not have it. -/
theorem swapErase_perm (hu : UniqueKeys members) :
    (Members.swapErase key members).Perm (members.filter fun entry => entry.1 ≠ key) := by
  induction members with
  | nil => exact List.Perm.refl _
  | cons entry rest ih =>
    obtain ⟨k, v⟩ := entry
    have hcons : k ∉ Members.keys rest ∧ UniqueKeys rest := List.nodup_cons.mp hu
    by_cases hk : k = key
    · subst hk
      have hrest : rest.filter (fun entry => entry.1 ≠ k) = rest := by
        rw [List.filter_eq_self]
        intro entry hentry
        have : entry.1 ≠ k := by
          rintro rfl
          exact hcons.1 (List.mem_map.mpr ⟨entry, hentry, rfl⟩)
        simpa using this
      rw [List.filter_cons_of_neg (by simp), hrest, Members.swapErase, if_pos rfl]
      rcases List.eq_nil_or_concat rest with rfl | ⟨front, last, rfl⟩
      · exact List.Perm.refl _
      · simp only [List.concat_eq_append, List.getLast?_append, List.getLast?_singleton,
          Option.some_or, List.dropLast_concat]
        exact (List.perm_append_singleton _ _).symm
    · rw [Members.swapErase, if_neg hk, List.filter_cons_of_pos (by simpa using hk)]
      exact (ih hcons.2).cons _

theorem swapErase_of_not_mem (h : key ∉ Members.keys members) :
    Members.swapErase key members = members := by
  induction members with
  | nil => rfl
  | cons entry rest ih =>
    obtain ⟨k, v⟩ := entry
    rw [Members.keys, List.map_cons, List.mem_cons, not_or] at h
    rw [Members.swapErase, if_neg (Ne.symm h.1), ih h.2]

/-- Erasing a key does not look at the values. -/
theorem swapErase_map (rewrite : String → Value → Value) :
    Members.swapErase key (members.map fun entry => (entry.1, rewrite entry.1 entry.2)) =
      (Members.swapErase key members).map fun entry => (entry.1, rewrite entry.1 entry.2) := by
  induction members with
  | nil => rfl
  | cons entry rest ih =>
    obtain ⟨k, v⟩ := entry
    rw [List.map_cons, Members.swapErase, Members.swapErase]
    split
    · rw [List.getLast?_map]
      cases rest.getLast? with
      | none => rfl
      | some last => rw [Option.map_some, List.map_cons, List.map_dropLast]
    · rw [List.map_cons, ih]

theorem uniqueKeys_of_perm {front back : Members} (h : front.Perm back) (hu : UniqueKeys back) :
    UniqueKeys front :=
  (h.map _).nodup_iff.mpr hu

/-- The order of members does not matter if each key occurs once. -/
theorem find?_perm {others : Members} (h : members.Perm others) (hu : UniqueKeys members) :
    Members.find? key members = Members.find? key others := by
  ext v
  rw [← mem_iff_find? hu, ← mem_iff_find? (uniqueKeys_of_perm h.symm hu), h.mem_iff]

theorem UniqueKeys.nodup (hu : UniqueKeys members) : members.Nodup :=
  List.Pairwise.of_map Prod.fst (fun _ _ hne heq => hne (congrArg Prod.fst heq)) hu

/-- Members that answer alike under every key differ at most in their order. -/
theorem perm_of_find? {others : Members} (hu : UniqueKeys members) (hu' : UniqueKeys others)
    (hfind : ∀ key, Members.find? key members = Members.find? key others) :
    members.Perm others := by
  rw [List.perm_ext_iff_of_nodup hu.nodup hu'.nodup]
  intro entry
  obtain ⟨key, v⟩ := entry
  rw [mem_iff_find? hu, mem_iff_find? hu', hfind]

theorem uniqueKeys_filter (p : String × Value → Bool) (hu : UniqueKeys members) :
    UniqueKeys (members.filter p) :=
  List.Nodup.sublist (List.filter_sublist.map _) hu

theorem uniqueKeys_swapErase (hu : UniqueKeys members) :
    UniqueKeys (Members.swapErase key members) :=
  uniqueKeys_of_perm (swapErase_perm hu) (uniqueKeys_filter _ hu)

theorem mem_swapErase (hu : UniqueKeys members) {entry : String × Value} :
    entry ∈ Members.swapErase key members ↔ entry ∈ members ∧ entry.1 ≠ key := by
  rw [(swapErase_perm hu).mem_iff, List.mem_filter]
  simp

theorem find?_swapErase (hu : UniqueKeys members) :
    Members.find? other (Members.swapErase key members) =
      if key = other then none else Members.find? other members := by
  by_cases h : key = other
  · subst h
    rw [if_pos rfl, find?_eq_none_iff]
    intro hmem
    obtain ⟨entry, hentry, hkey⟩ := List.mem_map.mp hmem
    exact ((mem_swapErase hu).mp hentry).2 hkey
  · rw [if_neg h]
    ext v
    simp only [← mem_iff_find? (uniqueKeys_swapErase hu), ← mem_iff_find? hu, mem_swapErase hu]
    exact and_iff_left (Ne.symm h)

/-- Merging duplicates leaves no duplicate. -/
theorem uniqueKeys_ofList (members : List (String × Value)) :
    UniqueKeys (Members.ofList members) := by
  suffices ∀ done : Members, UniqueKeys done →
      UniqueKeys (members.foldl (fun done entry => Members.set entry.1 entry.2 done) done) from
    this [] List.nodup_nil
  induction members with
  | nil => exact fun done hdone => hdone
  | cons entry rest ih => exact fun done hdone => ih _ (uniqueKeys_set hdone)

theorem mem_ofList {members : List (String × Value)} {entry : String × Value}
    (h : entry ∈ Members.ofList members) :
    entry ∈ members := by
  suffices ∀ done : Members,
      entry ∈ members.foldl (fun done entry => Members.set entry.1 entry.2 done) done →
        entry ∈ done ∨ entry ∈ members from
    (this [] h).resolve_left List.not_mem_nil
  clear h
  induction members with
  | nil => exact fun done h => Or.inl h
  | cons first rest ih =>
    intro done h
    rcases ih _ h with hdone | hrest
    · rcases mem_set hdone with heq | hold
      · exact Or.inr (heq ▸ List.mem_cons_self)
      · exact Or.inl hold
    · exact Or.inr (List.mem_cons_of_mem _ hrest)

theorem ofList_of_uniqueKeys {members : List (String × Value)} (hu : UniqueKeys members) :
    Members.ofList members = members := by
  suffices ∀ done : Members, UniqueKeys (done ++ members) →
      members.foldl (fun done entry => Members.set entry.1 entry.2 done) done =
        done ++ members from
    this [] hu
  clear hu
  induction members with
  | nil => simp
  | cons entry rest ih =>
    intro done hu
    have hnot : entry.1 ∉ Members.keys done := by
      intro hmem
      unfold UniqueKeys Members.keys at hu
      rw [List.map_append, List.nodup_append] at hu
      exact hu.2.2 _ hmem _ (List.mem_map.mpr ⟨entry, List.mem_cons_self, rfl⟩) rfl
    rw [List.foldl_cons, set_of_not_has hnot]
    have happend : done ++ [(entry.1, entry.2)] ++ rest = done ++ entry :: rest := by simp
    rw [ih _ (happend ▸ hu), happend]

end Schemata.Json.Members
