import Mathlib.Data.List.Perm.Subperm
import Schemata.Proofs.Json.Equality
import Schemata.Proofs.Json.NumberWords

/-!
# What equality by value decides

Two values are `Alike` under a relation on numbers if they have one structure, with objects taken
as maps from keys, and related numbers at corresponding places.  `equal` decides likeness under
`Number.Matches`: numbers stored in one way match if their exact values are the same, while a whole
number that meets a float is first rounded to a nearest one.

So equality is reflexive and symmetric.  It is equality of exact values, and transitive, where
whole numbers survive rounding, which those of up to 53 bits do.  Beyond them two whole numbers may
equal the same float, and differ.
-/

namespace Schemata.Json

namespace Number

variable {a b c : Number}

/-- The exact value of a number, however it is stored. -/
def value : Number → ℚ
  | whole n _ => n
  | float x => x.value

/-- The number has the value of some binary64 number, to which it is rounded. -/
def IsExact (a : Number) : Prop :=
  a.toBinary64.value = a.value

/-- Numbers stored in one way have the same value; in a mixed pair the whole number is rounded. -/
def Matches : Number → Number → Prop
  | whole n h, float x => (whole n h).toBinary64.value = x.value
  | float x, whole n h => x.value = (whole n h).toBinary64.value
  | a, b => a.value = b.value

theorem equal_iff_matches : a.equal b = true ↔ a.Matches b := by
  cases a with
  | whole n hn =>
    cases b with
    | whole m hm => exact (equal_whole hn hm).trans (@Int.cast_inj ℚ _ _ n m).symm
    | float y =>
      rw [equal_float_right]
      exact Binary64.sameValue_iff
  | float x =>
    rw [equal_float_left]
    cases b <;> exact Binary64.sameValue_iff

theorem Matches.refl (a : Number) : a.Matches a := by
  cases a <;> rfl

theorem Matches.symm (h : a.Matches b) : b.Matches a := by
  cases a <;> cases b <;> exact Eq.symm h

theorem equal_comm (a b : Number) : a.equal b = b.equal a := by
  rw [Bool.eq_iff_iff, equal_iff_matches, equal_iff_matches]
  exact ⟨Matches.symm, Matches.symm⟩

theorem isExact_float (x : Binary64) : (float x).IsExact :=
  rfl

theorem matches_iff_of_isExact (ha : a.IsExact) (hb : b.IsExact) :
    a.Matches b ↔ a.value = b.value := by
  cases a with
  | whole n hn =>
    cases b with
    | whole m hm => rfl
    | float y => rw [Matches, ha, value, value]
  | float x =>
    cases b with
    | whole m hm => rw [Matches, hb, value, value]
    | float y => rfl

/-- Only two whole numbers that are rounded can match a third number without matching. -/
theorem Matches.trans (ha : a.IsExact) (hc : c.IsExact) (h : a.Matches b) (h' : b.Matches c) :
    a.Matches c := by
  by_cases hb : b.IsExact
  · rw [matches_iff_of_isExact ha hb] at h
    rw [matches_iff_of_isExact hb hc] at h'
    exact (matches_iff_of_isExact ha hc).mpr (h.trans h')
  · cases b with
    | float y => exact absurd (isExact_float y) hb
    | whole m hm =>
      have hfloat : ∀ {d : Number}, d.IsExact → d.Matches (whole m hm) →
          d.value = (whole m hm).toBinary64.value := by
        intro d hd hmatch
        cases d with
        | float x => exact hmatch
        | whole n hn =>
          have hnm : n = m := by simpa [Matches, value] using hmatch
          subst hnm
          exact hd.symm
      rw [matches_iff_of_isExact ha hc, hfloat ha h, hfloat hc h'.symm]

/-- Whole numbers of up to 53 bits survive rounding. -/
theorem isExact_of_natAbs_le {n : Int} (h : leastWhole ≤ n ∧ n ≤ greatestWhole)
    (hle : n.natAbs ≤ 2 ^ 53) : (whole n h).IsExact := by
  obtain ⟨z, hz⟩ := Binary64.exists_value_eq hle
  have hnearest := nearest_toBinary64 h z
  rw [hz, sub_self, abs_zero] at hnearest
  exact sub_eq_zero.mp (abs_nonpos_iff.mp hnearest)

end Number

namespace Members

variable {xs ys : Members}

theorem has_iff_mem_keys {key : String} : Members.has key xs = true ↔ key ∈ Members.keys xs := by
  rw [Members.has, Option.isSome_iff_ne_none, ne_eq, find?_eq_none_iff, not_not]

/-- Among lists that hold each key once, having equally many keys and only known ones is to have
the same keys. -/
theorem has_eq_has_iff (hx : UniqueKeys xs) (hy : UniqueKeys ys) :
    (∀ key, Members.has key xs = Members.has key ys) ↔
      xs.length = ys.length ∧ ∀ key ∈ Members.keys xs, key ∈ Members.keys ys := by
  have hlength : ∀ zs : Members, (Members.keys zs).length = zs.length := fun zs => List.length_map _
  constructor
  · intro h
    have hmem : ∀ key, key ∈ Members.keys xs ↔ key ∈ Members.keys ys := fun key => by
      rw [← has_iff_mem_keys, ← has_iff_mem_keys, h key]
    refine ⟨?_, fun key hkey => (hmem key).mp hkey⟩
    rw [← hlength xs, ← hlength ys]
    exact ((List.perm_ext_iff_of_nodup hx hy).mpr hmem).length_eq
  · rintro ⟨hsame, hsubset⟩ key
    have hperm : (Members.keys xs).Perm (Members.keys ys) := by
      refine (hx.subperm hsubset).perm_of_length_le ?_
      rw [hlength, hlength, hsame]
    rw [Bool.eq_iff_iff, has_iff_mem_keys, has_iff_mem_keys, hperm.mem_iff]

end Members

namespace Value

open Members (UniqueKeys)

/-- The values have one structure, and their numbers are related place by place. -/
inductive Alike (R : Number → Number → Prop) : Value → Value → Prop
  | null : Alike R .null .null
  | bool (b : Bool) : Alike R (.bool b) (.bool b)
  | number {n m : Number} : R n m → Alike R (.number n) (.number m)
  | string (s : String) : Alike R (.string s) (.string s)
  | array {xs ys : List Value} : xs.length = ys.length →
      (∀ (i : Nat) v w, xs[i]? = some v → ys[i]? = some w → Alike R v w) →
        Alike R (.array xs) (.array ys)
  | object {xs ys : Members} : (∀ key, Members.has key xs = Members.has key ys) →
      (∀ key v w, Members.find? key xs = some v → Members.find? key ys = some w → Alike R v w) →
        Alike R (.object xs) (.object ys)

namespace Alike

variable {R S : Number → Number → Prop} {u v w : Value}

/-- Only the numbers inside the two values matter. -/
theorem imp (h : Alike R v w)
    (hR : ∀ n m, Within (.number n) v → Within (.number m) w → R n m → S n m) : Alike S v w := by
  induction h with
  | null => exact .null
  | bool b => exact .bool b
  | number h => exact .number (hR _ _ .self .self h)
  | string s => exact .string s
  | array hlength _ ih =>
    refine .array hlength fun i v w hv hw => ih i v w hv hw fun n m hn hm => ?_
    exact hR n m (.item (List.mem_of_getElem? hv) hn) (.item (List.mem_of_getElem? hw) hm)
  | object hkeys _ ih =>
    refine .object hkeys fun key v w hv hw => ih key v w hv hw fun n m hn hm => ?_
    exact hR n m (.member (Members.mem_of_find? hv) hn) (.member (Members.mem_of_find? hw) hm)

theorem refl (hR : ∀ n, R n n) (v : Value) : Alike R v v := by
  induction v using treeInduction with
  | null => exact .null
  | bool b => exact .bool b
  | number n => exact .number (hR n)
  | string s => exact .string s
  | array items ih =>
    refine .array rfl fun i v w hv hw => ?_
    rw [hv, Option.some.injEq] at hw
    exact hw ▸ ih v (List.mem_of_getElem? hv)
  | object members ih =>
    refine .object (fun _ => rfl) fun key v w hv hw => ?_
    rw [hv, Option.some.injEq] at hw
    exact hw ▸ ih (key, v) (Members.mem_of_find? hv)

theorem symm (hR : ∀ n m, R n m → R m n) (h : Alike R v w) : Alike R w v := by
  induction h with
  | null => exact .null
  | bool b => exact .bool b
  | number h => exact .number (hR _ _ h)
  | string s => exact .string s
  | array hlength _ ih => exact .array hlength.symm fun i v w hv hw => ih i w v hw hv
  | object hkeys _ ih =>
    exact .object (fun key => (hkeys key).symm) fun key v w hv hw => ih key w v hw hv

theorem trans {T : Number → Number → Prop} (hR : ∀ n m k, R n m → S m k → T n k)
    (h : Alike R u v) (h' : Alike S v w) : Alike T u w := by
  induction h generalizing w with
  | null => cases h' with | null => exact .null
  | bool b => cases h' with | bool => exact .bool b
  | number h => cases h' with | number h' => exact .number (hR _ _ _ h h')
  | string s => cases h' with | string => exact .string s
  | @array xs ys hlength _ ih =>
    cases h' with
    | @array _ zs hlength' hitems =>
      refine .array (hlength.trans hlength') fun i u w hu hw => ?_
      obtain ⟨v, hv⟩ : ∃ v, ys[i]? = some v := by
        have hi := (List.getElem?_eq_some_iff.mp hu).1
        exact ⟨ys[i], List.getElem?_eq_getElem (hlength ▸ hi)⟩
      exact ih i u v hu hv (hitems i v w hv hw)
  | @object xs ys hkeys _ ih =>
    cases h' with
    | @object _ zs hkeys' hmembers =>
      refine .object (fun key => (hkeys key).trans (hkeys' key)) fun key u w hu hw => ?_
      obtain ⟨v, hv⟩ : ∃ v, Members.find? key ys = some v := by
        rw [← Option.isSome_iff_exists]
        exact (hkeys key).symm.trans (by rw [Members.has, hu, Option.isSome_some])
      exact ih key u v hu hv (hmembers key v w hv hw)

end Alike

/-! ## Deciding likeness -/

theorem equalItems_iff (xs ys : List Value) :
    equalItems xs ys = true ↔
      ∀ (i : Nat) v w, xs[i]? = some v → ys[i]? = some w → equal v w = true := by
  induction xs generalizing ys with
  | nil => simp [equalItems]
  | cons x xs ih =>
    cases ys with
    | nil => simp [equalItems]
    | cons y ys =>
      rw [equalItems, Bool.and_eq_true, ih]
      constructor
      · rintro ⟨hfirst, hrest⟩ i v w hv hw
        cases i with
        | zero =>
          rw [List.getElem?_cons_zero, Option.some.injEq] at hv hw
          exact hv ▸ hw ▸ hfirst
        | succ i => exact hrest i v w hv hw
      · exact fun h => ⟨h 0 x y rfl rfl, fun i v w hv hw => h (i + 1) v w hv hw⟩

/-- Objects that hold each key once are equal if they have the same keys with equal values. -/
theorem equal_object_iff {xs ys : Members} (hx : UniqueKeys xs) (hy : UniqueKeys ys) :
    equal (.object xs) (.object ys) = true ↔
      (∀ key, Members.has key xs = Members.has key ys) ∧
        ∀ key v w, Members.find? key xs = some v → Members.find? key ys = some w →
          equal v w = true := by
  have hall : (xs.all fun entry => (Members.find? entry.1 ys).any fun w => equal entry.2 w) = true ↔
      (∀ key ∈ Members.keys xs, key ∈ Members.keys ys) ∧
        ∀ key v w, Members.find? key xs = some v → Members.find? key ys = some w →
          equal v w = true := by
    simp only [List.all_eq_true, Option.any_eq_true]
    constructor
    · refine fun h => ⟨fun key hkey => ?_, fun key v w hv hw => ?_⟩
      · obtain ⟨entry, hentry, rfl⟩ := List.mem_map.mp hkey
        obtain ⟨w, hw, -⟩ := h entry hentry
        exact Members.has_iff_mem_keys.mp (by rw [Members.has, hw, Option.isSome_some])
      · obtain ⟨w', hw', hequal⟩ := h (key, v) (Members.mem_of_find? hv)
        rw [hw, Option.some.injEq] at hw'
        exact hw' ▸ hequal
    · rintro ⟨hsubset, hvalues⟩ ⟨key, v⟩ hentry
      have hkey := Members.has_iff_mem_keys.mpr (hsubset key (List.mem_map_of_mem hentry))
      obtain ⟨w, hw⟩ := Option.isSome_iff_exists.mp hkey
      exact ⟨w, hw, hvalues key v w (Members.find?_of_mem hx hentry) hw⟩
  rw [equal, Bool.and_eq_true, beq_iff_eq, equalMembers_eq_all, hall, Members.has_eq_has_iff hx hy,
    and_assoc]

theorem equal_iff_alike {v w : Value} (hv : v.Unique) (hw : w.Unique) :
    equal v w = true ↔ Alike Number.Matches v w := by
  induction v using treeInduction generalizing w with
  | null => cases w with
    | null => exact iff_of_true rfl .null
    | _ => exact iff_of_false (by simp [equal]) (by rintro ⟨⟩)
  | bool b => cases w with
    | bool c =>
      rw [equal, beq_iff_eq]
      exact ⟨fun h => h ▸ .bool b, by rintro ⟨⟩; rfl⟩
    | _ => exact iff_of_false (by simp [equal]) (by rintro ⟨⟩)
  | number n => cases w with
    | number m =>
      rw [equal, Number.equal_iff_matches]
      exact ⟨.number, by rintro ⟨⟩; assumption⟩
    | _ => exact iff_of_false (by simp [equal]) (by rintro ⟨⟩)
  | string s => cases w with
    | string t =>
      rw [equal, beq_iff_eq]
      exact ⟨fun h => h ▸ .string s, by rintro ⟨⟩; rfl⟩
    | _ => exact iff_of_false (by simp [equal]) (by rintro ⟨⟩)
  | array xs ih => cases w with
    | array ys =>
      have hitems : ∀ (i : Nat) v w, xs[i]? = some v → ys[i]? = some w →
          (equal v w = true ↔ Alike Number.Matches v w) := fun i v w hx hy =>
        ih v (List.mem_of_getElem? hx) (hv.item (List.mem_of_getElem? hx))
          (hw.item (List.mem_of_getElem? hy))
      rw [equal, Bool.and_eq_true, beq_iff_eq, equalItems_iff]
      constructor
      · rintro ⟨hlength, hequal⟩
        exact .array hlength fun i v w hx hy => (hitems i v w hx hy).mp (hequal i v w hx hy)
      · rintro (_ | _ | _ | _ | ⟨hlength, halike⟩)
        exact ⟨hlength, fun i v w hx hy => (hitems i v w hx hy).mpr (halike i v w hx hy)⟩
    | _ => exact iff_of_false (by simp [equal]) (by rintro ⟨⟩)
  | object xs ih => cases w with
    | object ys =>
      have hmembers : ∀ key v w, Members.find? key xs = some v → Members.find? key ys = some w →
          (equal v w = true ↔ Alike Number.Matches v w) := fun key v w hx hy =>
        ih (key, v) (Members.mem_of_find? hx) (hv.find? hx) (hw.find? hy)
      rw [equal_object_iff hv.keys hw.keys]
      constructor
      · rintro ⟨hkeys, hequal⟩
        exact .object hkeys fun key v w hx hy =>
          (hmembers key v w hx hy).mp (hequal key v w hx hy)
      · rintro (_ | _ | _ | _ | _ | ⟨hkeys, halike⟩)
        exact ⟨hkeys, fun key v w hx hy => (hmembers key v w hx hy).mpr (halike key v w hx hy)⟩
    | _ => exact iff_of_false (by simp [equal]) (by rintro ⟨⟩)

/-! ## The law of equality -/

/-- Every number inside the value survives rounding. -/
def Exact (v : Value) : Prop :=
  ∀ n, Within (.number n) v → n.IsExact

section Law

variable {a b c : Value}

theorem equal_self (h : a.Unique) : equal a a = true :=
  (equal_iff_alike h h).mpr (Alike.refl Number.Matches.refl a)

theorem equal_comm (ha : a.Unique) (hb : b.Unique) : equal a b = equal b a := by
  rw [Bool.eq_iff_iff, equal_iff_alike ha hb, equal_iff_alike hb ha]
  exact ⟨Alike.symm fun _ _ => Number.Matches.symm, Alike.symm fun _ _ => Number.Matches.symm⟩

theorem equal_iff_of_exact (ha : a.Unique) (hb : b.Unique) (hexact : a.Exact) (hexact' : b.Exact) :
    equal a b = true ↔ Alike (fun n m => n.value = m.value) a b := by
  rw [equal_iff_alike ha hb]
  constructor <;> intro h <;> refine h.imp fun n m hn hm hnm => ?_
  · exact (Number.matches_iff_of_isExact (hexact n hn) (hexact' m hm)).mp hnm
  · exact (Number.matches_iff_of_isExact (hexact n hn) (hexact' m hm)).mpr hnm

theorem equal_trans_of_exact (ha : a.Unique) (hb : b.Unique) (hc : c.Unique) (hexact : a.Exact)
    (hexact' : c.Exact) (hab : equal a b = true) (hbc : equal b c = true) : equal a c = true := by
  have hab' : Alike (fun n m => n.IsExact ∧ n.Matches m) a b :=
    ((equal_iff_alike ha hb).mp hab).imp fun n m hn _ hnm => ⟨hexact n hn, hnm⟩
  have hbc' : Alike (fun n m => m.IsExact ∧ n.Matches m) b c :=
    ((equal_iff_alike hb hc).mp hbc).imp fun n m _ hm hnm => ⟨hexact' m hm, hnm⟩
  refine (equal_iff_alike ha hc).mpr (hab'.trans ?_ hbc')
  exact fun n m k hnm hmk => hnm.2.trans hnm.1 hmk.1 hmk.2

/-- Equality is likeness with whole numbers rounded where they meet floats, so that they equal only
nearest ones; it is reflexive and symmetric.  It is likeness by exact values, and transitive, where
the whole numbers survive rounding, as do those of up to 53 bits. -/
theorem equal_is_by_rounded_value (ha : a.Unique) (hb : b.Unique) (hc : c.Unique) :
    (equal a b = true ↔ Alike Number.Matches a b) ∧
      equal a a = true ∧ equal a b = equal b a ∧
      (a.Exact → b.Exact →
        (equal a b = true ↔ Alike (fun n m => n.value = m.value) a b)) ∧
      (a.Exact → c.Exact → equal a b = true → equal b c = true → equal a c = true) ∧
      ∀ (n : Int) (h : leastWhole ≤ n ∧ n ≤ greatestWhole),
        (n.natAbs ≤ 2 ^ 53 → (Number.whole n h).IsExact) ∧
        ∀ x, (Number.whole n h).Matches (.float x) →
          ∀ z : Binary64, |x.value - n| ≤ |z.value - n| := by
  refine ⟨equal_iff_alike ha hb, equal_self ha, equal_comm ha hb, equal_iff_of_exact ha hb,
    equal_trans_of_exact ha hb hc, fun n h => ⟨Number.isExact_of_natAbs_le h, ?_⟩⟩
  intro x hmatch z
  have hsame : (Number.whole n h).toBinary64.value = x.value := hmatch
  rw [← hsame]
  exact Number.nearest_toBinary64 h z

end Law

/-- The least whole number that no binary64 number holds. -/
def oddWhole : Value := .number (.whole 9007199254740993 (by decide))

/-- The whole number below it. -/
def evenWhole : Value := .number (.whole 9007199254740992 (by decide))

/-- The float with the value of the latter. -/
def evenFloat : Value := .number (.float ⟨false, Binary64.hiddenBit, 1, by decide⟩)

/-- Two different whole numbers equal the same float: the odd one is rounded to it. -/
theorem oddWhole_equals_evenFloat :
    oddWhole.Unique ∧ evenFloat.Unique ∧ evenWhole.Unique ∧
      equal oddWhole evenFloat = true ∧ equal evenFloat evenWhole = true ∧
      equal oddWhole evenWhole = false ∧ Alike Number.Matches oddWhole evenFloat ∧
      evenWhole.Exact ∧ ¬ oddWhole.Exact := by
  have hunique : ∀ n, (Value.number n).Unique := fun n =>
    unique_of_ne_container (by simp) (by simp)
  have hleft : equal oddWhole evenFloat = true := by decide +kernel
  have hright : equal evenFloat evenWhole = true := by decide +kernel
  have hdiffer : equal oddWhole evenWhole = false := by decide +kernel
  obtain ⟨halike, -, -, -, htrans, hnumbers⟩ := equal_is_by_rounded_value
    (a := oddWhole) (b := evenFloat) (c := evenWhole) (hunique _) (hunique _) (hunique _)
  have hexact : evenWhole.Exact := by
    intro n hn
    cases hn with
    | self => exact (hnumbers 9007199254740992 (by decide)).1 (by decide)
  refine ⟨hunique _, hunique _, hunique _, hleft, hright, hdiffer, halike.mp hleft, hexact, ?_⟩
  intro hodd
  have hequal := htrans hodd hexact hleft hright
  rw [hdiffer] at hequal
  exact Bool.false_ne_true hequal

end Value
end Schemata.Json
