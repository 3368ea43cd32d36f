import Schemata.Proofs.Json.NumericEquality
import Schemata.Proofs.Validation.Paths
import Schemata.Proofs.Validation.Union

/-!
# Repeated items in any order

The items of an array are compared each with the later ones.  Equality by value is symmetric between
values that hold each key once, so this finds any two equal items, however the array is arranged.
What a node says of an array at its own path depends on the number of items and on whether one is
repeated, so that the message about repeated items stays when the array is rearranged; and so it
does where the node declares more types than that of arrays, for the other types take no array or
take them all.
-/

namespace Schemata

namespace Json

open Value (hasDuplicates)

/-- The second list has the items of the first in some order, each with its keys in some order. -/
def Rearranged (xs ys : List Value) : Prop :=
  ∃ zs, xs.Perm zs ∧ List.Forall₂ Reordered zs ys

variable {xs ys : List Value}

theorem Rearranged.symm (h : Rearranged xs ys) : Rearranged ys xs := by
  obtain ⟨zs, hperm, hitems⟩ := h
  obtain ⟨ws, hitems', hperm'⟩ := List.perm_comp_forall₂ hperm hitems
  exact ⟨ws, hperm'.symm, (hitems'.imp fun _ _ => Reordered.symm).flip⟩

theorem Rearranged.unique (h : Rearranged xs ys) (hu : ∀ x ∈ xs, x.Unique) :
    ∀ y ∈ ys, y.Unique := by
  obtain ⟨zs, hperm, hitems⟩ := h
  have harray : (Value.array zs).Unique :=
    Value.unique_array_iff.mpr fun z hz => hu z (hperm.mem_iff.mpr hz)
  exact Value.unique_array_iff.mp ((Reordered.items hitems).unique harray)

theorem Rearranged.length_eq (h : Rearranged xs ys) : xs.length = ys.length := by
  obtain ⟨zs, hperm, hitems⟩ := h
  exact hperm.length_eq.trans hitems.length_eq

/-- Inequality is symmetric only where keys are held once; asking for that in the relation makes it
symmetric. -/
theorem pairwise_unequal_iff (hu : ∀ x ∈ xs, x.Unique) :
    xs.Pairwise (fun a b => a.equal b = false) ↔
      xs.Pairwise fun a b => a.Unique → b.Unique → a.equal b = false :=
  List.Pairwise.iff_of_mem fun ha hb => ⟨fun h _ _ => h, fun h => h (hu _ ha) (hu _ hb)⟩

/-- Permuting a list repeats no item and hides no repetition. -/
theorem hasDuplicates_perm (h : xs.Perm ys) (hu : ∀ x ∈ xs, x.Unique) :
    hasDuplicates xs = hasDuplicates ys := by
  have hu' : ∀ y ∈ ys, y.Unique := fun y hy => hu y (h.mem_iff.mpr hy)
  have hsame : hasDuplicates xs = false ↔ hasDuplicates ys = false := by
    rw [Validation.hasDuplicates_eq_false_iff, Validation.hasDuplicates_eq_false_iff,
      pairwise_unequal_iff hu, pairwise_unequal_iff hu']
    refine h.pairwise_iff fun {a b} hab hb ha => ?_
    rw [Value.equal_comm hb ha]
    exact hab ha hb
  rw [Bool.eq_iff_iff, ← not_iff_not, Bool.not_eq_true, Bool.not_eq_true, hsame]

theorem hasDuplicates_rearranged (h : Rearranged xs ys) (hu : ∀ x ∈ xs, x.Unique) :
    hasDuplicates xs = hasDuplicates ys := by
  obtain ⟨zs, hperm, hitems⟩ := h
  rw [hasDuplicates_perm hperm hu]
  exact Value.hasDuplicates_congr hitems fun z hz => hu z (hperm.mem_iff.mpr hz)

/-- A list has duplicates exactly if items at two of its places are equal. -/
theorem hasDuplicates_iff (hu : ∀ x ∈ xs, x.Unique) :
    hasDuplicates xs = true ↔
      ∃ (i j : Nat) (a b : Value), i ≠ j ∧ xs[i]? = some a ∧ xs[j]? = some b ∧
        a.equal b = true := by
  rw [← not_iff_not, Bool.not_eq_true, Validation.hasDuplicates_eq_false_iff,
    List.pairwise_iff_getElem]
  constructor
  · rintro h ⟨i, j, a, b, hne, hi, hj, hequal⟩
    obtain ⟨hi', rfl⟩ := List.getElem?_eq_some_iff.mp hi
    obtain ⟨hj', rfl⟩ := List.getElem?_eq_some_iff.mp hj
    rcases Nat.lt_or_gt_of_ne hne with hlt | hgt
    · simp [h i j hi' hj' hlt] at hequal
    · have hback := h j i hj' hi' hgt
      rw [Value.equal_comm (hu _ (List.getElem_mem hi')) (hu _ (List.getElem_mem hj'))] at hequal
      simp [hback] at hequal
  · intro h i j hi hj hlt
    by_contra hequal
    exact h ⟨i, j, xs[i], xs[j], hlt.ne, List.getElem?_eq_getElem hi, List.getElem?_eq_getElem hj,
      by simpa using hequal⟩

end Json

namespace Validation

open Json (Members Number Rearranged Reordered Value)

variable {policy : Policy} {node : Members} {path : String} {xs ys : List Value}

/-! ## Messages at the path of an array -/

theorem along_concat (path : String) (front : List String) (last : String) :
    along path (front ++ [last]) = below (along path front) last := by
  rw [along, List.foldl_append]
  rfl

theorem length_along (path : String) (steps : List String) :
    path.length + steps.length ≤ (along path steps).length := by
  induction steps using List.reverseRecOn with
  | nil => exact le_rfl
  | append_singleton front last ih =>
    rw [along_concat, below, String.length_append, String.length_append, List.length_append]
    have hdot : ".".length = 1 := rfl
    simp only [List.length_singleton]
    omega

theorem dot_mem_along {steps : List String} (h : steps ≠ []) (path : String) :
    '.' ∈ (along path steps).toList := by
  rw [← List.dropLast_concat_getLast h, along_concat, below]
  simp

/-- What is found below a path is not found at it. -/
theorem path_ne_of_mem_below {schema v : Value} {step : String} {entry : String × Violation}
    (h : entry ∈ Schema.check policy (.ofValue schema) v (below path step)) : entry.1 ≠ path := by
  obtain ⟨steps, hpath, -⟩ := located_check schema v (below path step) entry h
  have hlength := length_along path (step :: steps)
  rw [show along path (step :: steps) = entry.1 from hpath.symm, List.length_cons] at hlength
  intro hsame
  rw [hsame] at hlength
  omega

theorem path_ne_of_mem_checkTuple {tuple values : List Value} {index : Nat}
    {entry : String × Violation}
    (h : entry ∈ Schema.checkTuple policy (Schema.tupleOf tuple) values path index) :
    entry.1 ≠ path := by
  induction tuple generalizing values index with
  | nil => simp [Schema.tupleOf, Schema.checkTuple] at h
  | cons item rest ih =>
    cases values with
    | nil => simp [Schema.tupleOf, Schema.checkTuple] at h
    | cons v values =>
      rw [Schema.tupleOf, Schema.checkTuple, List.mem_append] at h
      rcases h with hfirst | hrest
      · exact path_ne_of_mem_below hfirst
      · exact ih hrest

theorem path_ne_of_mem_checkItems {values : List Value} {entry : String × Violation}
    (h : entry ∈ Schema.checkItems policy (Schema.itemsOf node) values path) :
    entry.1 ≠ path := by
  have heach : ∀ schema,
      entry ∈ Schema.checkItems policy (.each (.ofValue schema)) values path → entry.1 ≠ path := by
    intro schema hentry
    rw [Schema.checkItems] at hentry
    obtain ⟨item, -, hfound⟩ := List.mem_flatMap.mp hentry
    exact path_ne_of_mem_below hfound
  rw [itemsOf_eq] at h
  cases hitems : Members.find? "items" node with
  | none => simp [hitems, Schema.checkItems] at h
  | some item =>
    rw [hitems] at h
    cases item with
    | array tuple => exact path_ne_of_mem_checkTuple (by simpa [Schema.checkItems] using h)
    | _ => exact heach _ h

theorem entriesAt_checkItems (values : List Value) :
    Log.entriesAt (Schema.checkItems policy (Schema.itemsOf node) values path) path = [] := by
  rw [Log.entriesAt, List.map_eq_nil_iff, List.filter_eq_nil_iff]
  intro entry hentry
  simpa using path_ne_of_mem_checkItems hentry

/-- At the path of an array, a node says one thing of the number of items, or else that one is
repeated. -/
theorem entriesAt_check_array (values : List Value) :
    Log.entriesAt (Schema.check policy (Schema.ofMembersAs .array node) (.array values) path) path =
      match (Facets.ofMembers node).itemCount? values.length with
      | some violation => [violation]
      | none =>
        if ((Facets.ofMembers node).uniqueItems && Value.hasDuplicates values) = true then
          [.repeatedItems]
        else [] := by
  rw [Schema.ofMembersAs, Schema.check.eq_def]
  dsimp only
  cases (Facets.ofMembers node).itemCount? values.length with
  | some violation => simp [Log.entriesAt]
  | none =>
    dsimp only
    rw [Log.entriesAt_append, entriesAt_checkItems, List.append_nil, reportIf]
    split <;> simp [Log.entriesAt]

theorem entriesAt_check_rearranged (h : Rearranged xs ys) (hu : ∀ x ∈ xs, x.Unique) :
    Log.entriesAt (Schema.check policy (Schema.ofMembersAs .array node) (.array xs) path) path =
      Log.entriesAt (Schema.check policy (Schema.ofMembersAs .array node) (.array ys) path)
        path := by
  rw [entriesAt_check_array, entriesAt_check_array, h.length_eq, Json.hasDuplicates_rearranged h hu]

/-- Types other than that of arrays do not look into an array. -/
theorem check_array_of_ne {type : SchemaType} (htype : type ≠ .array) :
    Schema.check policy (Schema.ofMembersAs type node) (.array xs) path =
      Schema.check policy (Schema.ofMembersAs type node) (.array ys) path := by
  rw [Schema.ofMembersAs, Schema.check.eq_def, Schema.check.eq_def]
  cases type with
  | array => exact absurd rfl htype
  | _ => rfl

theorem entriesAt_messages (log : Log) :
    Log.entriesAt log.messages path = (Log.entriesAt log path).map Violation.message := by
  simp [Log.entriesAt, Log.messages, List.filter_map, Function.comp_def]

namespace Validator

variable {μ : Type} (v : Validator μ)

theorem messagesAt_check {errors : Errors} (hordered : errors.Ordered) (value schema : Value) :
    (v.check value schema path errors).1.messagesAt path =
      errors.messagesAt path ++
        (Log.entriesAt (Schema.check v.policy (.ofValue schema) value path) path).map
          Violation.message := by
  rw [check_eq_addAll, Errors.messagesAt_addAll hordered, entriesAt_messages]

/-- A node of one type says the same at the path of an array however it is arranged. -/
theorem messagesAt_check_rearranged {type : SchemaType} {errors : Errors}
    (hordered : errors.Ordered) (hdecl : Schema.declaration? node = some (.single type))
    (h : Rearranged xs ys) (hu : ∀ x ∈ xs, x.Unique) :
    (v.check (.array xs) (.object node) path errors).1.messagesAt path =
      (v.check (.array ys) (.object node) path errors).1.messagesAt path := by
  rw [messagesAt_check v hordered, messagesAt_check v hordered, check_ofValue_object,
    check_ofValue_object, hdecl]
  dsimp only
  by_cases htype : type = .array
  · rw [htype, entriesAt_check_rearranged h hu]
  · rw [check_array_of_ne htype]

/-! ## Arrays under a union -/

/-- What a trial finds elsewhere than at its own path, it finds behind a dot. -/
theorem dot_mem_of_mem_trial {value : Value} {type : SchemaType} {place message : String}
    (h : (place, message) ∈ (v.trial value node path type).toList) (hplace : place ≠ path) :
    '.' ∈ place.toList := by
  rw [trial_eq, Errors.toList_addAll_empty, List.mem_mergeSort] at h
  obtain ⟨⟨_, violation⟩, hentry, heq⟩ := List.mem_map.mp h
  obtain ⟨rfl, -⟩ := Prod.mk.inj heq
  obtain ⟨steps, rfl, -⟩ := locatedAll_check_ofMembersAs type
    (fun part _ v path => located_check part v path) _ hentry
  refine dot_mem_along ?_ path
  rintro rfl
  exact hplace rfl

theorem eq_of_told {type : SchemaType} {rest : String} :
    "type '" ++ type.name ++ "': " ++ rest = "type 'array': items must be unique" ↔
      type = .array ∧ rest = "items must be unique" := by
  rw [← String.toList_inj, ← @String.toList_inj rest]
  cases type <;> simp [SchemaType.name]

/-- Among the messages of a union's members, only that of an array with repeated items is told
so. -/
theorem mem_toldAs_iff {value : Value} {type : SchemaType} :
    "type 'array': items must be unique" ∈ (v.trial value node path type).toldAs type path ↔
      type = .array ∧
        "items must be unique" ∈ (v.trial value node path type).messagesAt path := by
  have hordered : (v.trial value node path type).Ordered := by
    rw [trial_eq]
    exact Errors.ordered_empty.addAll _
  rw [Errors.toldAs, List.mem_map]
  constructor
  · rintro ⟨⟨place, message⟩, hentry, htold⟩
    obtain ⟨htype, hrest⟩ := eq_of_told.mp htold
    refine ⟨htype, (Errors.mem_toList_iff hordered).mp ?_⟩
    by_cases hplace : place = path
    · rw [if_pos hplace] at hrest
      rwa [hplace, hrest] at hentry
    · rw [if_neg hplace] at hrest
      have hdot := v.dot_mem_of_mem_trial hentry hplace
      have htext : '.' ∈ "items must be unique".toList := by
        rw [← hrest]
        simp [hdot]
      exact absurd htext (by decide)
  · rintro ⟨htype, hmessage⟩
    refine ⟨(path, "items must be unique"), (Errors.mem_toList_iff hordered).mpr hmessage, ?_⟩
    exact eq_of_told.mpr ⟨htype, if_pos rfl⟩

/-- The members of a union find as much in an array if it is arranged otherwise, except that of
arrays; and that one finds the same at its own path. -/
theorem trial_rearranged {type : SchemaType} (htype : type ≠ .array) (xs ys : List Value) :
    v.trial (.array xs) node path type = v.trial (.array ys) node path type := by
  rw [trial_eq, trial_eq, check_array_of_ne htype]

theorem messagesAt_trial_rearranged (h : Rearranged xs ys) (hu : ∀ x ∈ xs, x.Unique) :
    (v.trial (.array xs) node path .array).messagesAt path =
      (v.trial (.array ys) node path .array).messagesAt path := by
  rw [trial_eq, trial_eq, Errors.messagesAt_addAll Errors.ordered_empty,
    Errors.messagesAt_addAll Errors.ordered_empty, entriesAt_messages, entriesAt_messages,
    entriesAt_check_rearranged h hu]

section Union

variable {types : List SchemaType} {errors : Errors}

/-- A union tells of repeated items if it did before, or if no member passes and the one of arrays
finds them. -/
theorem mem_messagesAt_union_iff (hordered : errors.Ordered)
    (hdecl : Schema.declaration? node = some (.union types)) (value : Value) :
    "type 'array': items must be unique" ∈
        (v.check value (.object node) path errors).1.messagesAt path ↔
      "type 'array': items must be unique" ∈ errors.messagesAt path ∨
        (∀ type ∈ types, v.trial value node path type ≠ .empty) ∧ .array ∈ types ∧
          "items must be unique" ∈ (v.trial value node path .array).messagesAt path := by
  by_cases hfail : ∀ type ∈ types, v.trial value node path type ≠ .empty
  · rw [v.check_union_of_failing value path hdecl errors hfail, Errors.messagesAt_addAll hordered,
      Log.entriesAt_map_self, List.mem_append, List.mem_flatMap]
    simp only [mem_toldAs_iff]
    refine or_congr_right ⟨?_, ?_⟩
    · rintro ⟨type, hmem, rfl, hmessage⟩
      exact ⟨hfail, hmem, hmessage⟩
    · rintro ⟨-, hmem, hmessage⟩
      exact ⟨.array, hmem, rfl, hmessage⟩
  · have hsame : (v.check value (.object node) path errors).1 = errors := by
      rw [v.check_union_eq_self_iff value path hdecl errors]
      push Not at hfail
      exact hfail
    rw [hsame]
    exact (or_iff_left fun h => hfail h.1).symm

theorem union_says_of_rearranged (hordered : errors.Ordered)
    (hdecl : Schema.declaration? node = some (.union types)) (h : Rearranged xs ys)
    (hu : ∀ x ∈ xs, x.Unique)
    (hsaid : "type 'array': items must be unique" ∈
      (v.check (.array xs) (.object node) path errors).1.messagesAt path) :
    "type 'array': items must be unique" ∈
      (v.check (.array ys) (.object node) path errors).1.messagesAt path := by
  rw [v.mem_messagesAt_union_iff hordered hdecl] at hsaid ⊢
  refine hsaid.imp_right ?_
  rintro ⟨hfail, hmem, hmessage⟩
  rw [v.messagesAt_trial_rearranged h hu] at hmessage
  refine ⟨fun type htype => ?_, hmem, hmessage⟩
  by_cases harray : type = .array
  · rintro hempty
    rw [← harray, hempty] at hmessage
    simp [Errors.messagesAt, Errors.find?, Errors.empty] at hmessage
  · rw [← v.trial_rearranged harray xs ys]
    exact hfail type htype

end Union

/-- Whether an array has equal items at two of its places, which may be compared either way, does
not depend on the order of the items, nor on that of the keys inside them.  So the message about
repeated items stands at the path of the array exactly if it does after the array was rearranged;
this holds of a node that declares one type, and of the member for arrays of a node that declares
several. -/
theorem repetition_is_found_in_any_order (hu : ∀ x ∈ xs, x.Unique) (h : Rearranged xs ys) :
    Value.hasDuplicates xs = Value.hasDuplicates ys ∧
    (Value.hasDuplicates xs = true ↔
      ∃ (i j : Nat) (a b : Value), i ≠ j ∧ xs[i]? = some a ∧ xs[j]? = some b ∧
        a.equal b = true) ∧
    (∀ a ∈ xs, ∀ b ∈ xs, a.equal b = b.equal a) ∧
    ∀ (node : Members) (path : String) (errors : Errors), errors.Ordered →
      let messages := fun items =>
        (v.check (.array items) (.object node) path errors).1.messagesAt path
      (∀ type, Schema.declaration? node = some (.single type) →
        ("items must be unique" ∈ messages xs ↔ "items must be unique" ∈ messages ys)) ∧
      ∀ types, Schema.declaration? node = some (.union types) →
        ("type 'array': items must be unique" ∈ messages xs ↔
          "type 'array': items must be unique" ∈ messages ys) := by
  refine ⟨Json.hasDuplicates_rearranged h hu, Json.hasDuplicates_iff hu,
    fun a ha b hb => Value.equal_comm (hu a ha) (hu b hb), fun node path errors hordered => ?_⟩
  refine ⟨fun type hdecl => ?_, fun types hdecl => ⟨fun hsaid => ?_, fun hsaid => ?_⟩⟩
  · dsimp only
    rw [v.messagesAt_check_rearranged hordered hdecl h hu]
  · exact v.union_says_of_rearranged hordered hdecl h hu hsaid
  · exact v.union_says_of_rearranged hordered hdecl h.symm (h.unique hu) hsaid

/-- An object that holds a number and an empty array. -/
def holding (n : Number) : Value :=
  .object [("a", .number n), ("b", .array [])]

def holdingReordered (n : Number) : Value :=
  .object [("b", .array []), ("a", .number n)]

/-- The whole number one, and the float. -/
def one : Number := .whole 1 (by decide)

def oneFloat : Number := .float ⟨false, Binary64.hiddenBit, -52, by decide⟩

def repeating : List Value :=
  [holding one, .string "b", holding oneFloat]

def repeatingRearranged : List Value :=
  [.string "b", holding oneFloat, holdingReordered one]

def distinctOrNull : Members :=
  [("type", .array [.string "null", .string "array"]), ("uniqueItems", .bool true)]

theorem repeating_is_found_rearranged :
    let v := fresh Pattern.engine false
    let messages := fun items =>
      (v.check (.array items) (.object distinctOrNull) "$" .empty).1.messagesAt "$"
    (∀ x ∈ repeating, x.Unique) ∧ Rearranged repeating repeatingRearranged ∧
      Errors.empty.Ordered ∧
      Schema.declaration? distinctOrNull = some (.union [.null, .array]) ∧
      Value.hasDuplicates repeatingRearranged = true ∧
      "type 'array': items must be unique" ∈ messages repeating ∧
      "type 'array': items must be unique" ∈ messages repeatingRearranged := by
  intro v messages
  have hmerged : (Value.array repeating).mergeDuplicates = .array repeating := by decide
  have hunique : (Value.array repeating).Unique := hmerged ▸ Value.unique_mergeDuplicates _
  have hu : ∀ x ∈ repeating, x.Unique := Value.unique_array_iff.mp hunique
  have hitem : ∀ n, Reordered (holding n) (holdingReordered n) := fun n =>
    .order (.swap _ _ _)
  have hrearranged : Rearranged repeating repeatingRearranged := by
    refine ⟨[.string "b", holding oneFloat, holding one], ?_, ?_⟩
    · exact @List.perm_append_comm _ [holding one] _
    · exact .cons (.refl _) (.cons (.refl _) (.cons (hitem one) .nil))
  have hdecl : Schema.declaration? distinctOrNull = some (.union [.null, .array]) := by decide
  have hsaid : "type 'array': items must be unique" ∈ messages repeating := by decide +kernel
  obtain ⟨hsame, -, -, hmessages⟩ := repetition_is_found_in_any_order v hu hrearranged
  refine ⟨hu, hrearranged, Errors.ordered_empty, hdecl, ?_, hsaid, ?_⟩
  · rw [← hsame]
    decide +kernel
  · exact ((hmessages distinctOrNull "$" .empty Errors.ordered_empty).2 _ hdecl).mp hsaid

end Validator

end Validation
end Schemata
