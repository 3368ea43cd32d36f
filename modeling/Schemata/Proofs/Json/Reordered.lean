import Mathlib.Data.List.Forall2
import Mathlib.Data.List.Nodup
import Schemata.Proofs.Json.Tree

/-!
# Equality up to the order of keys

Two values are `Reordered` if one becomes the other by permuting the members of objects at any
depth.  Objects that hold each key once are so related as soon as they answer alike under every
key.
-/

namespace Schemata.Json

/-- The values differ at most in the order of the members of objects, at any depth. -/
inductive Reordered : Value → Value → Prop
  | refl (v : Value) : Reordered v v
  | trans {u v w : Value} : Reordered u v → Reordered v w → Reordered u w
  | order {xs ys : Members} : xs.Perm ys → Reordered (.object xs) (.object ys)
  | member {front back : Members} {key : String} {v w : Value} : Reordered v w →
      Reordered (.object (front ++ (key, v) :: back)) (.object (front ++ (key, w) :: back))
  | item {front back : List Value} {v w : Value} : Reordered v w →
      Reordered (.array (front ++ v :: back)) (.array (front ++ w :: back))

namespace Reordered

theorem rel_refl (found : Option Value) : Option.Rel Reordered found found := by
  cases found with
  | none => exact .none
  | some v => exact .some (.refl v)

theorem items {vs ws : List Value} (h : List.Forall₂ Reordered vs ws) :
    Reordered (.array vs) (.array ws) := by
  suffices ∀ front, Reordered (.array (front ++ vs)) (.array (front ++ ws)) from this []
  induction h with
  | nil => exact fun front => .refl _
  | @cons v w vs ws hvw _ ih =>
    intro front
    have hrest := ih (front ++ [w])
    rw [List.append_assoc, List.append_assoc] at hrest
    exact (item hvw).trans hrest

theorem members {xs ys : Members}
    (h : List.Forall₂ (fun x y => x.1 = y.1 ∧ Reordered x.2 y.2) xs ys) :
    Reordered (.object xs) (.object ys) := by
  suffices ∀ front, Reordered (.object (front ++ xs)) (.object (front ++ ys)) from this []
  induction h with
  | nil => exact fun front => .refl _
  | @cons x y xs ys hxy _ ih =>
    intro front
    obtain ⟨key, v⟩ := x
    obtain ⟨key', w⟩ := y
    obtain ⟨rfl, hvw⟩ : key = key' ∧ Reordered v w := hxy
    have hrest := ih (front ++ [(key, w)])
    rw [List.append_assoc, List.append_assoc] at hrest
    exact (member hvw).trans hrest

/-- Objects that answer alike under every key are equal up to the order of keys. -/
theorem of_find? {xs ys : Members} (hxs : Members.UniqueKeys xs) (hys : Members.UniqueKeys ys)
    (h : ∀ key, Option.Rel Reordered (Members.find? key xs) (Members.find? key ys)) :
    Reordered (.object xs) (.object ys) := by
  have hanswered : ∀ x ∈ xs, ∃ w, Members.find? x.1 ys = some w ∧ Reordered x.2 w := by
    intro x hx
    have hfound : Members.find? x.1 xs = some x.2 := Members.find?_of_mem hxs hx
    have hrel := h x.1
    rw [hfound] at hrel
    generalize Members.find? x.1 ys = found at hrel
    cases hrel with
    | some hvw => exact ⟨_, rfl, hvw⟩
  -- The second object in the order of the first.
  let answers : Members := xs.map fun x => (x.1, (Members.find? x.1 ys).getD x.2)
  have hkeys : Members.UniqueKeys answers := by
    have hsame : Members.keys answers = Members.keys xs := by simp [answers, Members.keys]
    unfold Members.UniqueKeys
    rwa [hsame]
  have hperm : answers.Perm ys := by
    rw [List.perm_ext_iff_of_nodup hkeys.nodup hys.nodup]
    intro y
    constructor
    · intro hy
      obtain ⟨x, hx, rfl⟩ := List.mem_map.mp hy
      obtain ⟨w, hw, -⟩ := hanswered x hx
      rw [hw]
      exact Members.mem_of_find? hw
    · intro hy
      have hfind : Members.find? y.1 ys = some y.2 := Members.find?_of_mem hys hy
      have hrel := h y.1
      rw [hfind] at hrel
      generalize hfound : Members.find? y.1 xs = found at hrel
      cases hrel with
      | some hvw =>
        refine List.mem_map.mpr ⟨_, Members.mem_of_find? hfound, ?_⟩
        rw [hfind, Option.getD_some]
  refine (members ?_).trans (order hperm)
  rw [List.forall₂_map_right_iff, List.forall₂_same]
  intro x hx
  obtain ⟨w, hw, hxw⟩ := hanswered x hx
  exact ⟨rfl, by rwa [hw]⟩

/-! ## What reordered values have in common -/

theorem symm {v w : Value} (h : Reordered v w) : Reordered w v := by
  induction h with
  | refl v => exact .refl v
  | trans _ _ ih ih' => exact ih'.trans ih
  | order hperm => exact .order hperm.symm
  | member _ ih => exact .member ih
  | item _ ih => exact .item ih

theorem unique {v w : Value} (h : Reordered v w) (hu : v.Unique) : w.Unique := by
  induction h with
  | refl v => exact hu
  | trans _ _ ih ih' => exact ih' (ih hu)
  | order hperm =>
    rw [Value.unique_object_iff] at hu ⊢
    exact ⟨Members.uniqueKeys_of_perm hperm.symm hu.1,
      fun entry hentry => hu.2 entry (hperm.mem_iff.mpr hentry)⟩
  | member _ ih =>
    rw [Value.unique_object_iff] at hu ⊢
    obtain ⟨hkeys, hentries⟩ := hu
    refine ⟨by simpa [Members.UniqueKeys, Members.keys] using hkeys, ?_⟩
    simp only [List.mem_append, List.mem_cons, or_imp, forall_and, forall_eq] at hentries ⊢
    exact ⟨hentries.1, ih hentries.2.1, hentries.2.2⟩
  | item _ ih =>
    rw [Value.unique_array_iff] at hu ⊢
    simp only [List.mem_append, List.mem_cons, or_imp, forall_and, forall_eq] at hu ⊢
    exact ⟨hu.1, ih hu.2.1, hu.2.2⟩

theorem rel_trans {found found' found'' : Option Value} (h : Option.Rel Reordered found found')
    (h' : Option.Rel Reordered found' found'') : Option.Rel Reordered found found'' := by
  cases h with
  | none => exact h'
  | some hvw =>
    cases h' with
    | some hwu => exact .some (hvw.trans hwu)

theorem forall₂_trans {us vs ws : List Value} (h : List.Forall₂ Reordered us vs)
    (h' : List.Forall₂ Reordered vs ws) : List.Forall₂ Reordered us ws := by
  induction h generalizing ws with
  | nil => exact h'
  | cons huv _ ih =>
    cases h' with
    | cons hvw hrest => exact .cons (huv.trans hvw) (ih hrest)

/-- What is a reordered object is an object that answers alike under every key. -/
theorem exists_object {xs : Members} {w : Value} (h : Reordered (.object xs) w)
    (hu : Members.UniqueKeys xs) :
    ∃ ys, w = .object ys ∧ Members.UniqueKeys ys ∧
      ∀ key, Option.Rel Reordered (Members.find? key xs) (Members.find? key ys) := by
  generalize hv : Value.object xs = v at h
  induction h generalizing xs with
  | refl v => exact ⟨xs, hv.symm, hu, fun key => rel_refl _⟩
  | trans _ _ ih ih' =>
    obtain ⟨ys, rfl, hys, hfind⟩ := ih hu hv
    obtain ⟨zs, rfl, hzs, hfind'⟩ := ih' hys rfl
    exact ⟨zs, rfl, hzs, fun key => rel_trans (hfind key) (hfind' key)⟩
  | @order xs' ys hperm =>
    cases hv
    refine ⟨ys, rfl, Members.uniqueKeys_of_perm hperm.symm hu, fun key => ?_⟩
    rw [Members.find?_perm hperm hu]
    exact rel_refl _
  | @member front back key' v w hvw _ =>
    cases hv
    refine ⟨_, rfl, by simpa [Members.UniqueKeys, Members.keys] using hu, fun key => ?_⟩
    rcases @Members.find?_middle key front back key' v w with heq | ⟨hfind, hfind'⟩
    · rw [heq]
      exact rel_refl _
    · rw [hfind, hfind']
      exact .some hvw
  | item _ _ => cases hv

/-- What is a reordered array is an array with reordered items in the same places. -/
theorem exists_array {vs : List Value} {w : Value} (h : Reordered (.array vs) w) :
    ∃ ws, w = .array ws ∧ List.Forall₂ Reordered vs ws := by
  have hrefl : ∀ us : List Value, List.Forall₂ Reordered us us :=
    fun us => List.forall₂_same.mpr fun u _ => .refl u
  generalize hv : Value.array vs = v at h
  induction h generalizing vs with
  | refl v => exact ⟨vs, hv.symm, hrefl vs⟩
  | trans _ _ ih ih' =>
    obtain ⟨us, rfl, hitems⟩ := ih hv
    obtain ⟨ws, rfl, hitems'⟩ := ih' rfl
    exact ⟨ws, rfl, forall₂_trans hitems hitems'⟩
  | order _ => cases hv
  | member _ _ => cases hv
  | @item front back v w hvw _ =>
    cases hv
    exact ⟨_, rfl, List.rel_append (hrefl front) (.cons hvw (hrefl back))⟩

/-- What is neither an array nor an object has only one order. -/
theorem eq_of_ne_container {v w : Value} (h : Reordered v w) (harray : ∀ items, v ≠ .array items)
    (hobject : ∀ members, v ≠ .object members) : w = v := by
  induction h with
  | refl v => rfl
  | trans _ _ ih ih' =>
    obtain rfl := ih harray hobject
    exact ih' harray hobject
  | order _ => exact absurd rfl (hobject _)
  | member _ _ => exact absurd rfl (hobject _)
  | item _ _ => exact absurd rfl (harray _)

end Reordered
end Schemata.Json
