import Schemata.Proofs.Json.Members

/-!
# Walking into a value

A place in a value is named by the steps that lead to it: the key of a member, or the index of an
item as it is written.  `walk?` takes such steps one after the other.
-/

namespace Schemata.Json.Value

/-- One step into a value: to the member of an object under a key, or to the item of an array at
the index that is written so. -/
def step? (key : String) : Value → Option Value
  | object members => Members.find? key members
  | array items => (items.zipIdx.find? fun entry => Nat.repr entry.2 = key).map (·.1)
  | _ => none

/-- The value that steps lead to. -/
def walk? : List String → Value → Option Value
  | [], v => some v
  | key :: rest, v => (step? key v).bind (walk? rest)

variable {v w : Value} {key : String} {items : List Value}

/-- Different indices are written differently. -/
theorem eq_of_repr_eq {m n : Nat} (h : Nat.repr m = Nat.repr n) : m = n := by
  have hdigits := congrArg (fun text => Nat.ofDigitChars 10 text.toList 0) h
  simpa only [Nat.toList_repr, Nat.ofDigitChars_ten_toDigits] using hdigits

theorem step?_array : step? key (array items) = some w ↔
    ∃ index, key = Nat.repr index ∧ items[index]? = some w := by
  rw [step?, Option.map_eq_some_iff]
  constructor
  · rintro ⟨⟨_, index⟩, hfind, rfl⟩
    have hkey : Nat.repr index = key := by simpa using List.find?_some hfind
    exact ⟨index, hkey.symm, List.mk_mem_zipIdx_iff_getElem?.mp (List.mem_of_find?_eq_some hfind)⟩
  · rintro ⟨index, rfl, hitem⟩
    have hmem : (w, index) ∈ items.zipIdx := List.mk_mem_zipIdx_iff_getElem?.mpr hitem
    cases hfind : items.zipIdx.find? fun entry => Nat.repr entry.2 = Nat.repr index with
    | none => simpa using List.find?_eq_none.mp hfind _ hmem
    | some entry =>
      obtain ⟨found, other⟩ := entry
      have hother : other = index := eq_of_repr_eq (by simpa using List.find?_some hfind)
      have hfound : items[other]? = some found :=
        List.mk_mem_zipIdx_iff_getElem?.mp (List.mem_of_find?_eq_some hfind)
      rw [hother, hitem, Option.some.injEq] at hfound
      exact ⟨_, rfl, hfound.symm⟩

theorem step?_item {index : Nat} (h : items[index]? = some w) :
    step? (Nat.repr index) (array items) = some w :=
  step?_array.mpr ⟨index, rfl, h⟩

theorem walk?_cons_of_step {rest : List String} (h : step? key v = some w) :
    walk? (key :: rest) v = walk? rest w := by
  rw [walk?, h, Option.bind_some]

theorem walk?_append (front back : List String) :
    walk? (front ++ back) v = (walk? front v).bind (walk? back) := by
  induction front generalizing v with
  | nil => rfl
  | cons key rest ih =>
    rw [List.cons_append, walk?, walk?, Option.bind_assoc]
    exact congrArg (Option.bind (step? key v)) (funext fun _ => ih)

end Schemata.Json.Value
