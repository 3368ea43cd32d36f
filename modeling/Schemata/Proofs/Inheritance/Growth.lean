import Mathlib.Data.List.Infix
import Schemata.Proofs.Inheritance

/-!
# Inheriting only adds

What a node declares stays where it is while parents are merged into it: keys, properties and the
members of a property all remain in front.  So a parent that has been merged once stays covered,
whatever is merged afterwards, and merging it again changes nothing.
-/

namespace Schemata
namespace Inheritance

open Json (Members Value)

variable {own merged node node' parent theirs : Members} {key name : String} {inherited : Value}

/-! ## What stays in place -/

/-- The properties stay in place, and each of them its members; one that is no object stays as it
is. -/
structure KeepsChildren (own merged : Members) : Prop where
  keys : Members.keys own <+: Members.keys merged
  objects : ∀ name mine, Members.find? name own = some (.object mine) →
    ∃ filled, Members.find? name merged = some (.object filled) ∧ mine <+: filled
  others : ∀ name v, Members.find? name own = some v → (∀ mine, v ≠ .object mine) →
    Members.find? name merged = some v

/-- The keys of the node stay in place, and all values but its properties, whose schemas may be
filled. -/
structure KeepsOwn (node merged : Members) : Prop where
  keys : Members.keys node <+: Members.keys merged
  values : ∀ key v, key ≠ "properties" → Members.find? key node = some v →
    Members.find? key merged = some v
  children : ∀ own, Members.find? "properties" node = some (.object own) →
    ∃ properties, Members.find? "properties" merged = some (.object properties) ∧
      KeepsChildren own properties
  malformed : ∀ v, Members.find? "properties" node = some v → (∀ own, v ≠ .object own) →
    Members.find? "properties" merged = some v

theorem KeepsChildren.refl (own : Members) : KeepsChildren own own :=
  ⟨List.prefix_refl _, fun _ mine h => ⟨mine, h, List.prefix_refl _⟩, fun _ _ h _ => h⟩

theorem KeepsChildren.trans {last : Members} (h : KeepsChildren own merged)
    (h' : KeepsChildren merged last) : KeepsChildren own last where
  keys := h.keys.trans h'.keys
  objects := by
    intro name mine hmine
    obtain ⟨filled, hfilled, hfront⟩ := h.objects name mine hmine
    obtain ⟨more, hmore, hfront'⟩ := h'.objects name filled hfilled
    exact ⟨more, hmore, hfront.trans hfront'⟩
  others := by
    intro name v hv hobject
    exact h'.others name v (h.others name v hv hobject) hobject

theorem KeepsOwn.refl (node : Members) : KeepsOwn node node :=
  ⟨List.prefix_refl _, fun _ _ _ h => h, fun own h => ⟨own, h, .refl own⟩, fun _ h _ => h⟩

theorem KeepsOwn.trans {last : Members} (h : KeepsOwn node merged) (h' : KeepsOwn merged last) :
    KeepsOwn node last where
  keys := h.keys.trans h'.keys
  values := by
    intro key v hkey hv
    exact h'.values key v hkey (h.values key v hkey hv)
  children := by
    intro own hown
    obtain ⟨properties, hproperties, hkept⟩ := h.children own hown
    obtain ⟨more, hmore, hkept'⟩ := h'.children properties hproperties
    exact ⟨more, hmore, hkept.trans hkept'⟩
  malformed := by
    intro v hv hobject
    exact h'.malformed v (h.malformed v hv hobject) hobject

/-! ## One parent -/

theorem prefix_fill (own parent : Members) : own <+: fill own parent := by
  induction parent generalizing own with
  | nil => exact List.prefix_refl own
  | cons entry rest ih =>
    have hadded : own <+: Members.addMissing own entry.1 entry.2 := by
      unfold Members.addMissing
      split
      · exact List.prefix_refl own
      · exact List.prefix_append _ _
    rw [fill_cons]
    exact hadded.trans (ih _)

theorem keys_mergeProperty (own : Members) (name : String) (inherited : Value) :
    Members.keys own <+: Members.keys (mergeProperty own name inherited) := by
  unfold mergeProperty
  split
  · exact (List.prefix_append own _).map _
  · case h_2 mine hmine =>
    split
    · rw [Members.keys_set_of_has (Members.mem_keys_of_find? hmine)]
    · exact List.prefix_refl _
  · exact List.prefix_refl _

theorem keepsChildren_mergeProperty (own : Members) (name : String) (inherited : Value) :
    KeepsChildren own (mergeProperty own name inherited) where
  keys := keys_mergeProperty own name inherited
  objects := by
    intro other mine hmine
    rw [find?_mergeProperty, hmine]
    by_cases hname : name = other
    · rw [if_pos hname]
      cases inherited with
      | object theirs => exact ⟨fill mine theirs, rfl, prefix_fill mine theirs⟩
      | _ => exact ⟨mine, rfl, List.prefix_refl mine⟩
    · rw [if_neg hname]
      exact ⟨mine, rfl, List.prefix_refl mine⟩
  others := by
    intro other v hv hobject
    rw [find?_mergeProperty, hv]
    by_cases hname : name = other
    · rw [if_pos hname]
      cases v with
      | object mine => exact absurd rfl (hobject mine)
      | _ => rfl
    · rw [if_neg hname]

theorem keepsChildren_mergeProperties (own parent : Members) :
    KeepsChildren own (mergeProperties own parent) := by
  induction parent generalizing own with
  | nil => exact .refl own
  | cons entry rest ih =>
    rw [mergeProperties_cons]
    exact (keepsChildren_mergeProperty own entry.1 entry.2).trans (ih _)

theorem keys_extend (node parent : Members) :
    Members.keys node <+: Members.keys (extend node parent) := by
  have hfilled : Members.keys node <+:
      Members.keys (fill node (Members.swapErase "properties" parent)) :=
    (prefix_fill node _).map _
  unfold extend
  dsimp only
  split
  · exact hfilled
  · split
    · exact hfilled.trans ((List.prefix_append _ _).map _)
    · case h_2 own hown =>
      split
      · rwa [Members.keys_set_of_has (Members.mem_keys_of_find? hown)]
      · exact hfilled
    · exact hfilled

/-- One parent leaves what the node declares in place. -/
theorem keepsOwn_extend (hparent : Members.UniqueKeys parent) :
    KeepsOwn node (extend node parent) where
  keys := keys_extend node parent
  values := by
    intro key v hkey hv
    rw [find?_extend hparent, if_neg hkey, hv, Option.some_or]
  children := by
    intro own hown
    rw [find?_extend hparent, if_pos rfl, hown]
    cases htheirs : Members.find? "properties" parent with
    | none => exact ⟨own, rfl, .refl own⟩
    | some v =>
      cases v with
      | object theirs => exact ⟨mergeProperties own theirs, rfl, keepsChildren_mergeProperties _ _⟩
      | _ => exact ⟨own, rfl, .refl own⟩
  malformed := by
    intro v hv hobject
    rw [find?_extend hparent, if_pos rfl, hv]
    cases v with
    | object own => exact absurd rfl (hobject own)
    | _ => rfl

/-- So do any parents. -/
theorem keepsOwn_foldl_extend {parents : List Members}
    (hparents : ∀ parent ∈ parents, Members.UniqueKeys parent) :
    KeepsOwn node (parents.foldl extend node) := by
  apply List.foldlRecOn (motive := KeepsOwn node) _ _ (.refl node)
  intro merged hkept parent hparent
  exact hkept.trans (keepsOwn_extend (hparents parent hparent))

/-! ## Parents that have nothing to add -/

/-- What one schema says under a key, the other says too, if both are objects. -/
def CoversSchema (mine theirs : Value) : Prop :=
  ∀ own inherited, mine = .object own → theirs = .object inherited →
    Members.keys inherited ⊆ Members.keys own

/-- Every inherited property is declared, and its schema covered. -/
def CoversChildren (own theirs : Members) : Prop :=
  ∀ entry ∈ theirs, ∃ mine, Members.find? entry.1 own = some mine ∧ CoversSchema mine entry.2

/-- The node has the keys of the parent, and if both have properties, then it has all of them. -/
structure Covers (node parent : Members) : Prop where
  keys : Members.keys parent ⊆ Members.keys node
  children : ∀ own theirs, Members.find? "properties" node = some (.object own) →
    Members.find? "properties" parent = some (.object theirs) → CoversChildren own theirs

theorem fill_eq_self (h : Members.keys parent ⊆ Members.keys own) : fill own parent = own := by
  induction parent with
  | nil => rfl
  | cons entry rest ih =>
    obtain ⟨hentry, hrest⟩ := List.cons_subset.mp h
    rw [fill_cons, Members.addMissing_of_mem hentry]
    exact ih hrest

theorem mergeProperty_eq_self {mine : Value} (hmine : Members.find? name own = some mine)
    (h : CoversSchema mine inherited) : mergeProperty own name inherited = own := by
  unfold mergeProperty
  rw [hmine]
  cases mine with
  | object members =>
    cases inherited with
    | object theirs =>
      dsimp only
      rw [fill_eq_self (h members theirs rfl rfl), Members.set_of_find? hmine]
    | _ => rfl
  | _ => rfl

theorem mergeProperties_eq_self (h : CoversChildren own theirs) :
    mergeProperties own theirs = own := by
  induction theirs with
  | nil => rfl
  | cons entry rest ih =>
    obtain ⟨hentry, hrest⟩ := List.forall_mem_cons.mp h
    obtain ⟨mine, hmine, hcovers⟩ := hentry
    rw [mergeProperties_cons, mergeProperty_eq_self hmine hcovers]
    exact ih hrest

/-- A parent that is covered adds nothing. -/
theorem extend_eq_self (hparent : Members.UniqueKeys parent) (h : Covers node parent) :
    extend node parent = node := by
  have hfilled : fill node (Members.swapErase "properties" parent) = node := by
    apply fill_eq_self
    intro key hkey
    obtain ⟨entry, hentry, rfl⟩ := List.mem_map.mp hkey
    exact h.keys (List.mem_map_of_mem ((Members.mem_swapErase hparent).mp hentry).1)
  unfold extend
  dsimp only
  rw [hfilled]
  cases htheirs : Members.find? "properties" parent with
  | none => rfl
  | some inherited =>
    obtain ⟨mine, hmine⟩ : ∃ mine, Members.find? "properties" node = some mine :=
      Members.exists_of_mem_keys (h.keys (Members.mem_keys_of_find? htheirs))
    rw [hmine]
    cases mine with
    | object own =>
      cases inherited with
      | object theirs =>
        dsimp only
        rw [mergeProperties_eq_self (h.children own theirs hmine htheirs),
          Members.set_of_find? hmine]
      | _ => rfl
    | _ => rfl

/-! ## Parents that have been merged -/

theorem CoversSchema.refl (v : Value) : CoversSchema v v := by
  rintro own inherited rfl heq
  rw [Value.object.injEq] at heq
  rw [heq]
  exact List.Subset.refl _

theorem coversSchema_fill (mine theirs : Members) :
    CoversSchema (.object (fill mine theirs)) (.object theirs) := by
  intro own inherited hown hinherited
  rw [Value.object.injEq] at hown hinherited
  subst hown hinherited
  intro key hkey
  by_contra hnot
  rw [← Members.find?_eq_none_iff, find?_fill, Option.or_eq_none_iff] at hnot
  exact Members.find?_eq_none_iff.mp hnot.2 hkey

/-- Whatever a property says, it covers the inherited one after merging. -/
theorem exists_mergedSchema (found : Option Value) (inherited : Value) :
    ∃ mine, mergedSchema found (some inherited) = some mine ∧ CoversSchema mine inherited := by
  cases found with
  | none => exact ⟨inherited, rfl, .refl inherited⟩
  | some v =>
    cases v with
    | object mine =>
      cases inherited with
      | object theirs => exact ⟨_, rfl, coversSchema_fill mine theirs⟩
      | _ => exact ⟨_, rfl, by simp [CoversSchema]⟩
    | _ => exact ⟨_, rfl, by simp [CoversSchema]⟩

theorem exists_mergedProperties (found : Option Value) (inherited : Value) :
    ∃ merged, mergedProperties found (some inherited) = some merged := by
  cases found with
  | none => exact ⟨inherited, rfl⟩
  | some v =>
    cases v with
    | object own => cases inherited <;> exact ⟨_, rfl⟩
    | _ => exact ⟨_, rfl⟩

theorem coversChildren_self (htheirs : Members.UniqueKeys theirs) :
    CoversChildren theirs theirs := by
  intro entry hentry
  exact ⟨entry.2, Members.find?_of_mem htheirs hentry, .refl _⟩

theorem coversChildren_mergeProperties (htheirs : Members.UniqueKeys theirs) :
    CoversChildren (mergeProperties own theirs) theirs := by
  intro entry hentry
  rw [find?_mergeProperties htheirs, Members.find?_of_mem htheirs hentry]
  exact exists_mergedSchema _ _

/-- A parent is covered as soon as it is merged. -/
theorem covers_extend (hparent : Value.Unique (.object parent)) :
    Covers (extend node parent) parent where
  keys := by
    intro key hkey
    obtain ⟨v, hv⟩ := Members.exists_of_mem_keys hkey
    obtain ⟨merged, hmerged⟩ : ∃ merged, Members.find? key (extend node parent) = some merged := by
      rw [find?_extend hparent.keys, hv]
      by_cases hproperties : key = "properties"
      · rw [if_pos hproperties]
        exact exists_mergedProperties _ v
      · rw [if_neg hproperties]
        cases Members.find? key node with
        | none => exact ⟨v, rfl⟩
        | some mine => exact ⟨mine, rfl⟩
    exact Members.mem_keys_of_find? hmerged
  children := by
    intro own theirs hown htheirs
    have hunique : Members.UniqueKeys theirs := (hparent.find? htheirs).keys
    rw [find?_extend hparent.keys, if_pos rfl, htheirs] at hown
    cases hmine : Members.find? "properties" node with
    | none =>
      rw [hmine] at hown
      obtain rfl : theirs = own := by simpa [mergedProperties] using hown
      exact coversChildren_self hunique
    | some mine =>
      rw [hmine] at hown
      cases mine with
      | object members =>
        obtain rfl : mergeProperties members theirs = own := by
          simpa [mergedProperties] using hown
        exact coversChildren_mergeProperties hunique
      | _ => simp [mergedProperties] at hown

/-- Properties that cover others still do so after they have been filled. -/
theorem CoversChildren.of_keeps (h : CoversChildren own theirs) (hkept : KeepsChildren own merged) :
    CoversChildren merged theirs := by
  intro entry hentry
  obtain ⟨mine, hmine, hcovers⟩ := h entry hentry
  by_cases hobject : ∃ members, mine = .object members
  · obtain ⟨members, rfl⟩ := hobject
    obtain ⟨filled, hfilled, hfront⟩ := hkept.objects entry.1 members hmine
    refine ⟨.object filled, hfilled, ?_⟩
    rintro _ inherited ⟨⟩ hinherited
    exact List.Subset.trans (hcovers members inherited rfl hinherited) (hfront.map _).subset
  · rw [not_exists] at hobject
    exact ⟨mine, hkept.others entry.1 mine hmine hobject, hcovers⟩

/-- A node that covers a parent still does so after it has inherited more. -/
theorem Covers.of_keeps (h : Covers node parent) (hkept : KeepsOwn node node') :
    Covers node' parent where
  keys := List.Subset.trans h.keys hkept.keys.subset
  children := by
    intro own theirs hown htheirs
    obtain ⟨mine, hmine⟩ : ∃ mine, Members.find? "properties" node = some mine :=
      Members.exists_of_mem_keys (h.keys (Members.mem_keys_of_find? htheirs))
    by_cases hobject : ∃ members, mine = .object members
    · obtain ⟨members, rfl⟩ := hobject
      obtain ⟨properties, hproperties, hchildren⟩ := hkept.children members hmine
      obtain rfl : properties = own := by simpa [hproperties] using hown
      exact (h.children members theirs hmine htheirs).of_keeps hchildren
    · rw [not_exists] at hobject
      have hsame := hkept.malformed mine hmine hobject
      rw [hown, Option.some.injEq] at hsame
      exact absurd hsame.symm (hobject own)

theorem covers_foldl_extend {parents : List Members}
    (hparents : ∀ parent ∈ parents, Value.Unique (.object parent)) (hmem : parent ∈ parents) :
    Covers (parents.foldl extend node) parent := by
  induction parents generalizing node with
  | nil => simp at hmem
  | cons first rest ih =>
    rw [List.forall_mem_cons] at hparents
    rw [List.foldl_cons]
    rcases List.mem_cons.mp hmem with rfl | hrest
    · -- covered at once, and what comes later takes nothing away
      exact (covers_extend hparents.1).of_keeps
        (keepsOwn_foldl_extend fun other hother => (hparents.2 other hother).keys)
    · exact ih hparents.2 hrest

/-- Whatever parents are merged into a node, merging one of them once more changes nothing, not
even the order of keys; and what the node declares itself stays in place. -/
theorem inheriting_only_adds (node : Members) (parents : List Members)
    (hparents : ∀ parent ∈ parents, Value.Unique (.object parent)) :
    (∀ parent ∈ parents, extend (parents.foldl extend node) parent = parents.foldl extend node) ∧
      KeepsOwn node (parents.foldl extend node) := by
  constructor
  · intro parent hmem
    exact extend_eq_self (hparents parent hmem).keys (covers_foldl_extend hparents hmem)
  · exact keepsOwn_foldl_extend fun parent hmem => (hparents parent hmem).keys

/-- A node with a property that is no schema. -/
def patched : Members :=
  [("properties", .object [("x", .object [("required", .bool true)]), ("y", .null)]),
    ("type", .string "object")]

/-- A parent that declares both properties of the node, and another one. -/
def thorough : Members :=
  [("id", .string "thorough"), ("properties", .object [("z", .bool false),
      ("y", .object [("type", .string "any")]),
      ("x", .object [("type", .string "string"), ("required", .bool false)])]),
    ("additionalProperties", .bool false)]

/-- A parent with something else where properties should be. -/
def sloppy : Members :=
  [("description", .string "d"), ("properties", .string "none"), ("type", .string "any")]

theorem patched_inherits_once :
    (∀ parent ∈ [sloppy, thorough], Value.Unique (.object parent)) ∧
      [sloppy, thorough].foldl extend patched =
        [("properties", .object [
            ("x", .object [("required", .bool true), ("type", .string "string")]), ("y", .null),
            ("z", .bool false)]),
          ("type", .string "object"), ("description", .string "d"), ("id", .string "thorough"),
          ("additionalProperties", .bool false)] ∧
      extend ([sloppy, thorough].foldl extend patched) sloppy =
        [sloppy, thorough].foldl extend patched ∧
      extend ([sloppy, thorough].foldl extend patched) thorough =
        [sloppy, thorough].foldl extend patched ∧
      KeepsOwn patched ([sloppy, thorough].foldl extend patched) := by
  have hunique : ∀ parent ∈ [sloppy, thorough], Value.Unique (.object parent) := by
    intro parent hmem
    have hmerged : (Value.object parent).mergeDuplicates = .object parent := by
      rcases List.mem_pair.mp hmem with rfl | rfl
      · decide
      · decide
    exact hmerged ▸ Value.unique_mergeDuplicates (.object parent)
  obtain ⟨hagain, hkept⟩ := inheriting_only_adds patched [sloppy, thorough] hunique
  exact ⟨hunique, rfl, hagain sloppy (by simp), hagain thorough (by simp), hkept⟩

end Inheritance
end Schemata
