import Schemata.Json.Equality
import Schemata.Proofs.Json.Reordered

/-!
# Equality by value ignores the order of keys

Reordering either side of a comparison does not change its outcome.  The right side is looked up
by key, so its objects must hold each key once.
-/

namespace Schemata.Json.Value

variable {v w : Value}

/-! ## One item changed -/

theorem equalItems_eq_all (vs ws : List Value) :
    equalItems vs ws = (List.zipWith equal vs ws).all id := by
  induction vs generalizing ws with
  | nil => simp [equalItems]
  | cons v vs ih =>
    cases ws with
    | nil => rfl
    | cons w ws => rw [equalItems, ih, List.zipWith_cons_cons, List.all_cons, id]

/-- An item may be exchanged for one that is combined alike with everything. -/
theorem zipWith_exchange {compare : Value → Value → Bool} (h : ∀ u, compare v u = compare w u)
    (front back others : List Value) :
    List.zipWith compare (front ++ v :: back) others =
      List.zipWith compare (front ++ w :: back) others := by
  induction front generalizing others with
  | nil => cases others <;> simp [h]
  | cons first front ih => cases others <;> simp [ih]

theorem equalItems_left (h : ∀ u, equal v u = equal w u) (front back others : List Value) :
    equalItems (front ++ v :: back) others = equalItems (front ++ w :: back) others := by
  rw [equalItems_eq_all, equalItems_eq_all, zipWith_exchange h]

theorem equalItems_right (h : ∀ u, equal u v = equal u w) (front back others : List Value) :
    equalItems others (front ++ v :: back) = equalItems others (front ++ w :: back) := by
  rw [equalItems_eq_all, equalItems_eq_all, List.zipWith_comm, zipWith_exchange h,
    List.zipWith_comm]

/-! ## Comparisons -/

/-- Every member of the first list is compared with the member of the second under its key. -/
theorem equalMembers_eq_all (xs ys : Members) :
    equalMembers xs ys =
      xs.all fun entry => (Members.find? entry.1 ys).any fun v => equal entry.2 v := by
  induction xs with
  | nil => rfl
  | cons entry xs ih =>
    obtain ⟨k, x⟩ := entry
    rw [equalMembers, List.all_cons, ih]
    cases Members.find? k ys <;> rfl

/-- The left side of a comparison may be reordered. -/
theorem equal_left (h : Reordered v w) (u : Value) : equal v u = equal w u := by
  induction h generalizing u with
  | refl v => rfl
  | trans _ _ ih ih' => rw [ih, ih']
  | order hperm =>
    cases u with
    | object zs =>
      rw [equal, equal, equalMembers_eq_all, equalMembers_eq_all, hperm.length_eq, hperm.all_eq]
    | _ => rfl
  | member _ ih =>
    cases u with
    | object zs => simp [equal, equalMembers_eq_all, ih]
    | _ => rfl
  | @item front back _ _ _ ih =>
    cases u with
    | array us => simp [equal, equalItems_left ih]
    | _ => rfl

/-- So may the right side, if its objects hold each key once. -/
theorem equal_right (h : Reordered v w) (hu : v.Unique) (u : Value) : equal u v = equal u w := by
  induction h generalizing u with
  | refl v => rfl
  | trans h _ ih ih' => rw [ih hu, ih' (h.unique hu)]
  | @order xs ys hperm =>
    cases u with
    | object zs =>
      have hfind : ∀ key, Members.find? key xs = Members.find? key ys :=
        fun key => Members.find?_perm hperm hu.keys
      simp [equal, equalMembers_eq_all, hperm.length_eq, hfind]
    | _ => rfl
  | @member front back key v w _ ih =>
    cases u with
    | object zs =>
      have hv : v.Unique := (unique_object_iff.mp hu).2 (key, v) (by simp)
      have hany : ∀ entry : String × Value,
          (Members.find? entry.1 (front ++ (key, v) :: back)).any (fun v => equal entry.2 v) =
            (Members.find? entry.1 (front ++ (key, w) :: back)).any fun v => equal entry.2 v := by
        intro entry
        rcases @Members.find?_middle entry.1 front back key v w with heq | ⟨hfind, hfind'⟩
        · rw [heq]
        · rw [hfind, hfind', Option.any_some, Option.any_some, ih hv]
      simp [equal, equalMembers_eq_all, hany]
    | _ => rfl
  | @item front back v w _ ih =>
    cases u with
    | array us =>
      have hv : v.Unique := hu.item (by simp)
      simp [equal, equalItems_right (ih hv)]
    | _ => rfl

theorem equal_congr {v' w' : Value} (h : Reordered v v') (h' : Reordered w w') (hw : w.Unique) :
    equal v w = equal v' w' :=
  (equal_left h w).trans (equal_right h' hw v')

/-! ## Lists -/

theorem any_equal_left {vs ws : List Value} (h : List.Forall₂ Reordered vs ws) (u : Value) :
    (vs.any fun v => equal v u) = ws.any fun w => equal w u := by
  induction h with
  | nil => rfl
  | cons hfirst _ ih => rw [List.any_cons, List.any_cons, ih, equal_left hfirst]

theorem any_equal_congr {vs ws : List Value} (h : List.Forall₂ Reordered vs ws)
    (hu : ∀ u ∈ vs, u.Unique) (hvw : Reordered v w) : vs.any (equal v) = ws.any (equal w) := by
  induction h with
  | nil => rfl
  | cons hfirst _ ih =>
    rw [List.forall_mem_cons] at hu
    rw [List.any_cons, List.any_cons, ih hu.2, equal_congr hvw hfirst hu.1]

theorem hasDuplicates_congr {vs ws : List Value} (h : List.Forall₂ Reordered vs ws)
    (hu : ∀ u ∈ vs, u.Unique) : hasDuplicates vs = hasDuplicates ws := by
  induction h with
  | nil => rfl
  | cons hfirst hrest ih =>
    rw [List.forall_mem_cons] at hu
    rw [hasDuplicates, hasDuplicates, ih hu.2, any_equal_congr hrest hu.2 hfirst]

end Schemata.Json.Value
