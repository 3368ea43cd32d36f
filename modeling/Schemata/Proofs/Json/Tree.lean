import Schemata.Proofs.Json.Members

/-!
# JSON values as trees

`Within w v` says that `w` is the value `v` or occurs somewhere inside it.  Two properties of whole
trees are told with it: in a `Unique` value every object holds each key once, as in all values
that are read, and a `Whole` value has no number that is stored as a float.  `nesting` counts the
levels of arrays and objects.
-/

namespace Schemata.Json

/-- What is held under a key is smaller than the list that holds it. -/
theorem sizeOf_snd_lt_of_mem {α β : Type} [SizeOf α] [SizeOf β] {entry : α × β}
    {entries : List (α × β)} (h : entry ∈ entries) : sizeOf entry.2 < sizeOf entries := by
  have hlt := List.sizeOf_lt_of_mem h
  obtain ⟨k, v⟩ := entry
  simp only [Prod.mk.sizeOf_spec] at hlt
  change sizeOf v < sizeOf entries
  omega

namespace Value

/-- Induction over the arrays and objects of a value. -/
@[elab_as_elim]
theorem treeInduction {motive : Value → Prop}
    (null : motive .null) (bool : ∀ b, motive (.bool b)) (number : ∀ n, motive (.number n))
    (string : ∀ s, motive (.string s))
    (array : ∀ items, (∀ v ∈ items, motive v) → motive (.array items))
    (object : ∀ members : Members, (∀ entry ∈ members, motive entry.2) → motive (.object members)) :
    ∀ v, motive v
  | .null => null
  | .bool b => bool b
  | .number n => number n
  | .string s => string s
  | .array items =>
    array items fun v _ => treeInduction null bool number string array object v
  | .object members =>
    object members fun entry hentry => by
      have hsize := sizeOf_snd_lt_of_mem hentry
      exact treeInduction null bool number string array object entry.2
termination_by v => sizeOf v

/-! ## Deciding equality -/

mutual

/-- The values are the same, down to the order of members. -/
def same : Value → Value → Bool
  | .null, .null => true
  | .bool a, .bool b => a == b
  | .number a, .number b => decide (a = b)
  | .string a, .string b => a == b
  | .array xs, .array ys => sameItems xs ys
  | .object xs, .object ys => sameMembers xs ys
  | _, _ => false

def sameItems : List Value → List Value → Bool
  | [], [] => true
  | x :: xs, y :: ys => same x y && sameItems xs ys
  | _, _ => false

def sameMembers : List (String × Value) → List (String × Value) → Bool
  | [], [] => true
  | (k, x) :: xs, (l, y) :: ys => k == l && same x y && sameMembers xs ys
  | _, _ => false

end

theorem sameItems_iff {items : List Value} (hitems : ∀ v ∈ items, ∀ w, same v w = true ↔ v = w)
    (others : List Value) : sameItems items others = true ↔ items = others := by
  induction items generalizing others with
  | nil => cases others <;> simp [sameItems]
  | cons v rest ih =>
    rw [List.forall_mem_cons] at hitems
    cases others with
    | nil => simp [sameItems]
    | cons w others =>
      rw [sameItems, Bool.and_eq_true, hitems.1, ih hitems.2, List.cons.injEq]

theorem sameMembers_iff {members : Members}
    (hmembers : ∀ entry ∈ members, ∀ w, same entry.2 w = true ↔ entry.2 = w)
    (others : Members) : sameMembers members others = true ↔ members = others := by
  induction members generalizing others with
  | nil => cases others <;> simp [sameMembers]
  | cons entry rest ih =>
    rw [List.forall_mem_cons] at hmembers
    obtain ⟨k, v⟩ := entry
    cases others with
    | nil => simp [sameMembers]
    | cons other others =>
      obtain ⟨l, w⟩ := other
      rw [sameMembers, Bool.and_eq_true, Bool.and_eq_true, hmembers.1, ih hmembers.2, beq_iff_eq,
        List.cons.injEq, Prod.mk.injEq]

theorem same_iff (v w : Value) : same v w = true ↔ v = w := by
  induction v using treeInduction generalizing w with
  | array items ih =>
    cases w with
    | array others => rw [same, sameItems_iff ih, array.injEq]
    | _ => simp [same]
  | object members ih =>
    cases w with
    | object others => rw [same, sameMembers_iff ih, object.injEq]
    | _ => simp [same]
  | _ => cases w <;> simp [same]

instance : DecidableEq Value :=
  fun v w => decidable_of_iff (same v w = true) (same_iff v w)

/-! ## Parts -/

/-- The value itself, or a value somewhere inside it. -/
inductive Within (w : Value) : Value → Prop
  | self : Within w w
  | item {v : Value} {items : List Value} : v ∈ items → Within w v → Within w (.array items)
  | member {entry : String × Value} {members : Members} :
      entry ∈ members → Within w entry.2 → Within w (.object members)

/-! ## Unique keys -/

/-- Every object in the value holds each key once. -/
def Unique (v : Value) : Prop :=
  ∀ members, Within (.object members) v → Members.UniqueKeys members

theorem unique_array_iff {items : List Value} :
    Unique (.array items) ↔ ∀ v ∈ items, Unique v := by
  constructor
  · intro h v hv members hwithin
    exact h members (.item hv hwithin)
  · intro h members hwithin
    cases hwithin with
    | item hv hwithin => exact h _ hv members hwithin

theorem unique_object_iff {members : Members} :
    Unique (.object members) ↔
      Members.UniqueKeys members ∧ ∀ entry ∈ members, Unique entry.2 := by
  constructor
  · intro h
    exact ⟨h members .self, fun entry hentry inner hwithin => h inner (.member hentry hwithin)⟩
  · rintro ⟨hkeys, hentries⟩ inner hwithin
    cases hwithin with
    | self => exact hkeys
    | member hentry hwithin => exact hentries _ hentry inner hwithin

theorem Unique.keys {members : Members} (h : Unique (.object members)) :
    Members.UniqueKeys members :=
  (unique_object_iff.mp h).1

theorem Unique.find? {members : Members} {key : String} {v : Value}
    (h : Unique (.object members)) (hfind : Members.find? key members = some v) :
    Unique v :=
  (unique_object_iff.mp h).2 (key, v) (Members.mem_of_find? hfind)

theorem Unique.item {items : List Value} {v : Value}
    (h : Unique (.array items)) (hv : v ∈ items) :
    Unique v :=
  unique_array_iff.mp h v hv

theorem unique_of_ne_container {v : Value} (harray : ∀ items, v ≠ .array items)
    (hobject : ∀ members, v ≠ .object members) :
    Unique v := by
  intro members hwithin
  cases hwithin with
  | self => exact absurd rfl (hobject members)
  | item hv _ => exact absurd rfl (harray _)
  | member hentry _ => exact absurd rfl (hobject _)

theorem Unique.set {members : Members} {key : String} {v : Value}
    (h : Unique (.object members)) (hv : Unique v) :
    Unique (.object (Members.set key v members)) := by
  rw [unique_object_iff] at h ⊢
  refine ⟨Members.uniqueKeys_set h.1, ?_⟩
  intro entry hentry
  rcases Members.mem_set hentry with rfl | hold
  · exact hv
  · exact h.2 entry hold

theorem Unique.addMissing {members : Members} {key : String} {v : Value}
    (h : Unique (.object members)) (hv : Unique v) :
    Unique (.object (Members.addMissing members key v)) := by
  rw [unique_object_iff] at h ⊢
  refine ⟨Members.uniqueKeys_addMissing h.1, ?_⟩
  intro entry hentry
  rcases Members.mem_addMissing hentry with rfl | hold
  · exact hv
  · exact h.2 entry hold

theorem Unique.swapErase {members : Members} {key : String} (h : Unique (.object members)) :
    Unique (.object (Members.swapErase key members)) := by
  rw [unique_object_iff] at h ⊢
  exact ⟨Members.uniqueKeys_swapErase h.1,
    fun entry hentry => h.2 entry ((Members.mem_swapErase h.1).mp hentry).1⟩

/-! ## Merging duplicates -/

theorem mergeItems_eq_map (items : List Value) :
    mergeItems items = items.map mergeDuplicates := by
  induction items with
  | nil => rfl
  | cons v rest ih => rw [mergeItems, ih, List.map_cons]

theorem mergeMembers_eq_map (members : Members) :
    mergeMembers members = members.map fun entry => (entry.1, mergeDuplicates entry.2) := by
  induction members with
  | nil => rfl
  | cons entry rest ih => rw [mergeMembers, ih, List.map_cons]

theorem unique_mergeDuplicates (v : Value) : Unique (mergeDuplicates v) := by
  induction v using treeInduction with
  | null | bool _ | number _ | string _ =>
    exact unique_of_ne_container (by simp [mergeDuplicates]) (by simp [mergeDuplicates])
  | array items ih =>
    rw [mergeDuplicates, unique_array_iff, mergeItems_eq_map]
    intro w hw
    obtain ⟨v, hv, rfl⟩ := List.mem_map.mp hw
    exact ih v hv
  | object members ih =>
    rw [mergeDuplicates, unique_object_iff, mergeMembers_eq_map]
    refine ⟨Members.uniqueKeys_ofList _, ?_⟩
    intro entry hentry
    obtain ⟨old, hold, rfl⟩ := List.mem_map.mp (Members.mem_ofList hentry)
    exact ih old hold

theorem mergeDuplicates_of_unique {v : Value} (h : Unique v) : mergeDuplicates v = v := by
  induction v using treeInduction with
  | null | bool _ | number _ | string _ => rfl
  | array items ih =>
    rw [mergeDuplicates, mergeItems_eq_map]
    have hmap : items.map mergeDuplicates = items.map id :=
      List.map_congr_left fun v hv => ih v hv (h.item hv)
    rw [hmap, List.map_id]
  | object members ih =>
    have hmap : members.map (fun entry => (entry.1, mergeDuplicates entry.2)) =
        members.map id := by
      refine List.map_congr_left fun entry hentry => ?_
      rw [ih entry hentry ((unique_object_iff.mp h).2 entry hentry)]
      rfl
    rw [mergeDuplicates, mergeMembers_eq_map, hmap, List.map_id,
      Members.ofList_of_uniqueKeys h.keys]

/-! ## Nesting -/

mutual

/-- The number of levels of arrays and objects. -/
def nesting : Value → Nat
  | array items => nestingItems items + 1
  | object members => nestingMembers members + 1
  | _ => 0

/-- The nesting of the item that is nested most deeply. -/
def nestingItems : List Value → Nat
  | [] => 0
  | v :: rest => max (nesting v) (nestingItems rest)

/-- The nesting of the member that is nested most deeply. -/
def nestingMembers : List (String × Value) → Nat
  | [] => 0
  | (_, v) :: rest => max (nesting v) (nestingMembers rest)

end

theorem nestingItems_le_iff {items : List Value} {depth : Nat} :
    nestingItems items ≤ depth ↔ ∀ v ∈ items, nesting v ≤ depth := by
  induction items with
  | nil => simp [nestingItems]
  | cons v rest ih => rw [nestingItems, Nat.max_le, ih, List.forall_mem_cons]

theorem nestingMembers_le_iff {members : Members} {depth : Nat} :
    nestingMembers members ≤ depth ↔ ∀ entry ∈ members, nesting entry.2 ≤ depth := by
  induction members with
  | nil => simp [nestingMembers]
  | cons entry rest ih => rw [nestingMembers, Nat.max_le, ih, List.forall_mem_cons]

theorem nesting_array_le_iff {items : List Value} {depth : Nat} :
    nesting (.array items) ≤ depth + 1 ↔ ∀ v ∈ items, nesting v ≤ depth := by
  rw [nesting, Nat.succ_le_succ_iff, nestingItems_le_iff]

theorem nesting_object_le_iff {members : Members} {depth : Nat} :
    nesting (.object members) ≤ depth + 1 ↔ ∀ entry ∈ members, nesting entry.2 ≤ depth := by
  rw [nesting, Nat.succ_le_succ_iff, nestingMembers_le_iff]

theorem nesting_lt_of_entry {members : Members} {entry : String × Value} (h : entry ∈ members) :
    nesting entry.2 < nesting (.object members) := by
  have hle : nesting (.object members) ≤ nestingMembers members + 1 := Nat.le_refl _
  rw [nesting]
  exact Nat.lt_succ_of_le (nesting_object_le_iff.mp hle entry h)

theorem nesting_lt_of_find? {members : Members} {key : String} {v : Value}
    (h : Members.find? key members = some v) :
    nesting v < nesting (.object members) :=
  nesting_lt_of_entry (Members.mem_of_find? h)

theorem nesting_lt_of_item {items : List Value} {v : Value} (h : v ∈ items) :
    nesting v < nesting (.array items) := by
  have hle : nesting (.array items) ≤ nestingItems items + 1 := Nat.le_refl _
  rw [nesting]
  exact Nat.lt_succ_of_le (nesting_array_le_iff.mp hle v h)

theorem nesting_perm {members others : Members} (h : members.Perm others) :
    nesting (.object members) = nesting (.object others) := by
  have hle : ∀ {front back : Members}, front.Perm back →
      nesting (.object front) ≤ nesting (.object back) := by
    intro front back hperm
    rw [nesting, nesting, Nat.succ_le_succ_iff, nestingMembers_le_iff]
    exact fun entry hentry => nestingMembers_le_iff.mp (Nat.le_refl _) entry
      (hperm.mem_iff.mp hentry)
  exact Nat.le_antisymm (hle h) (hle h.symm)

theorem nesting_mergeDuplicates_le (v : Value) :
    nesting (mergeDuplicates v) ≤ nesting v := by
  induction v using treeInduction with
  | null | bool _ | number _ | string _ => exact Nat.le_refl _
  | array items ih =>
    rw [mergeDuplicates, mergeItems_eq_map, nesting, nesting, Nat.succ_le_succ_iff,
      nestingItems_le_iff]
    intro w hw
    obtain ⟨v, hv, rfl⟩ := List.mem_map.mp hw
    exact Nat.le_trans (ih v hv) (nestingItems_le_iff.mp (Nat.le_refl _) v hv)
  | object members ih =>
    rw [mergeDuplicates, mergeMembers_eq_map, nesting, nesting, Nat.succ_le_succ_iff,
      nestingMembers_le_iff]
    intro entry hentry
    obtain ⟨old, hold, rfl⟩ := List.mem_map.mp (Members.mem_ofList hentry)
    exact Nat.le_trans (ih old hold) (nestingMembers_le_iff.mp (Nat.le_refl _) old hold)

/-! ## Whole numbers -/

/-- No number in the value is stored as a float. -/
def Whole (v : Value) : Prop :=
  ∀ x, ¬ Within (.number (.float x)) v

theorem Whole.item {items : List Value} {v : Value}
    (h : Whole (.array items)) (hv : v ∈ items) :
    Whole v :=
  fun x hwithin => h x (.item hv hwithin)

theorem Whole.entry {members : Members} {entry : String × Value}
    (h : Whole (.object members)) (hentry : entry ∈ members) :
    Whole entry.2 :=
  fun x hwithin => h x (.member hentry hwithin)

theorem whole_of_ne_container {v : Value} (harray : ∀ items, v ≠ .array items)
    (hobject : ∀ members, v ≠ .object members) (hfloat : ∀ x, v ≠ .number (.float x)) :
    Whole v := by
  intro x hwithin
  cases hwithin with
  | self => exact absurd rfl (hfloat x)
  | item hv _ => exact absurd rfl (harray _)
  | member hentry _ => exact absurd rfl (hobject _)

theorem whole_array_iff {items : List Value} : Whole (.array items) ↔ ∀ v ∈ items, Whole v := by
  refine ⟨fun h v hv => h.item hv, ?_⟩
  rintro h x (_ | ⟨hv, hwithin⟩)
  exact h _ hv x hwithin

theorem whole_object_iff {members : Members} :
    Whole (.object members) ↔ ∀ entry ∈ members, Whole entry.2 := by
  refine ⟨fun h entry hentry => h.entry hentry, ?_⟩
  rintro h x (_ | _ | ⟨hentry, hwithin⟩)
  exact h _ hentry x hwithin

theorem whole_mergeDuplicates {v : Value} (h : Whole v) : Whole (mergeDuplicates v) := by
  induction v using treeInduction with
  | null | bool _ | number _ | string _ => exact h
  | array items ih =>
    rw [mergeDuplicates, mergeItems_eq_map, whole_array_iff, List.forall_mem_map]
    exact fun v hv => ih v hv (h.item hv)
  | object members ih =>
    rw [mergeDuplicates, mergeMembers_eq_map, whole_object_iff]
    intro entry hentry
    obtain ⟨old, hold, rfl⟩ := List.mem_map.mp (Members.mem_ofList hentry)
    exact ih old hold (h.entry hold)

end Value
end Schemata.Json
