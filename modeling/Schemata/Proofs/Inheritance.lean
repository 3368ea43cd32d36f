import Schemata.Inheritance
import Schemata.Proofs.Json.Tree

/-!
# What a node holds after inheriting

Each step of `extend` is described by what it answers under a key: the node's own value where it
has one, the parent's value otherwise, and under `properties` the same once more for every name.
-/

namespace Schemata

open Json (Members Value)

namespace Inheritance

variable {own parent : Members} {key : String}

/-! ## Filling in missing keys -/

theorem fill_nil : fill own [] = own :=
  rfl

theorem fill_cons {entry : String × Value} {rest : Members} :
    fill own (entry :: rest) = fill (Members.addMissing own entry.1 entry.2) rest :=
  rfl

theorem find?_fill :
    Members.find? key (fill own parent) =
      (Members.find? key own).or (Members.find? key parent) := by
  induction parent generalizing own with
  | nil => rw [fill_nil, Members.find?_nil, Option.or_none]
  | cons entry rest ih =>
    obtain ⟨k, v⟩ := entry
    rw [fill_cons, ih, Members.find?_addMissing, Members.find?_cons, Option.or_assoc]
    split <;> rfl

/-- What a filled node has comes from the node or from its parent. -/
theorem find?_of_fill {v : Value} (h : Members.find? key (fill own parent) = some v) :
    Members.find? key own = some v ∨ Members.find? key parent = some v := by
  rw [find?_fill, Option.or_eq_some_iff] at h
  exact h.imp_right And.right

theorem uniqueKeys_fill (hown : Members.UniqueKeys own) : Members.UniqueKeys (fill own parent) := by
  apply List.foldlRecOn (motive := Members.UniqueKeys) parent _ hown
  intro done hdone entry _
  exact Members.uniqueKeys_addMissing hdone

theorem unique_fill (hown : Value.Unique (.object own)) (hparent : Value.Unique (.object parent)) :
    Value.Unique (.object (fill own parent)) := by
  have hentries := (Value.unique_object_iff.mp hparent).2
  apply List.foldlRecOn (motive := fun done : Members => Value.Unique (.object done)) parent _ hown
  intro done hdone entry hentry
  exact hdone.addMissing (hentries entry hentry)

/-! ## Merging properties -/

/-- The schema of a name that a node declares as `own` and its parent as `inherited`. -/
def mergedSchema : Option Value → Option Value → Option Value
  | some (.object mine), some (.object theirs) => some (.object (fill mine theirs))
  | some mine, _ => some mine
  | none, inherited => inherited

@[simp] theorem mergedSchema_none (own : Option Value) : mergedSchema own none = own := by
  cases own with
  | none => rfl
  | some v => cases v <;> rfl

/-- A merged schema is inherited, the node's own, or filled from both. -/
theorem mergedSchema_eq_some {mine inherited : Option Value} {v : Value}
    (h : mergedSchema mine inherited = some v) :
    (mine = none ∧ inherited = some v) ∨ mine = some v ∨
      ∃ own theirs, mine = some (.object own) ∧ inherited = some (.object theirs) ∧
        v = .object (fill own theirs) := by
  cases mine with
  | none => exact Or.inl ⟨rfl, h⟩
  | some w =>
    refine Or.inr ?_
    cases w with
    | object own =>
      cases inherited with
      | none => exact Or.inl (by simpa using h)
      | some w =>
        cases w with
        | object theirs => exact Or.inr ⟨own, theirs, rfl, rfl, (Option.some.inj h).symm⟩
        | _ => exact Or.inl (by simpa [mergedSchema] using h)
    | _ => exact Or.inl (by simpa [mergedSchema] using h)

theorem mergedSchema_eq_object {mine inherited : Option Value} {members : Members}
    (h : mergedSchema mine inherited = some (.object members)) :
    (mine = none ∧ inherited = some (.object members)) ∨ mine = some (.object members) ∨
      ∃ own theirs, mine = some (.object own) ∧ inherited = some (.object theirs) ∧
        members = fill own theirs := by
  simpa only [Value.object.injEq] using mergedSchema_eq_some h

theorem find?_mergeProperty {name : String} {inherited : Value} :
    Members.find? key (mergeProperty own name inherited) =
      if name = key then mergedSchema (Members.find? key own) (some inherited)
      else Members.find? key own := by
  unfold mergeProperty
  by_cases hname : name = key
  · subst hname
    rw [if_pos rfl]
    cases hfind : Members.find? name own with
    | none => simp [Members.find?_append, hfind, Members.find?_cons, mergedSchema]
    | some mine =>
      cases mine with
      | object mine =>
        cases inherited <;> simp [hfind, Members.find?_set, mergedSchema]
      | _ => simp [hfind, mergedSchema]
  · rw [if_neg hname]
    split
    · simp [Members.find?_append, Members.find?_cons, hname]
    · split
      · rw [Members.find?_set, if_neg hname]
      · rfl
    · rfl

theorem mergeProperties_cons {entry : String × Value} {rest : Members} :
    mergeProperties own (entry :: rest) =
      mergeProperties (mergeProperty own entry.1 entry.2) rest :=
  rfl

theorem find?_mergeProperties (hu : Members.UniqueKeys parent) :
    Members.find? key (mergeProperties own parent) =
      mergedSchema (Members.find? key own) (Members.find? key parent) := by
  induction parent generalizing own with
  | nil => rw [Members.find?_nil, mergedSchema_none]; rfl
  | cons entry rest ih =>
    obtain ⟨name, inherited⟩ := entry
    have hcons : name ∉ Members.keys rest ∧ Members.UniqueKeys rest := List.nodup_cons.mp hu
    rw [mergeProperties_cons, ih hcons.2, find?_mergeProperty, Members.find?_cons]
    by_cases hname : name = key
    · subst hname
      rw [if_pos rfl, if_pos rfl, Members.find?_eq_none_iff.mpr hcons.1, mergedSchema_none]
    · rw [if_neg hname, if_neg hname]

/-- A property of the merged node is the node's own, the parent's, or filled from both. -/
theorem mem_mergeProperty {name : String} {inherited : Value} {entry : String × Value}
    (h : entry ∈ mergeProperty own name inherited) :
    entry ∈ own ∨ entry = (name, inherited) ∨
      ∃ mine theirs, Members.find? name own = some (.object mine) ∧
        inherited = .object theirs ∧ entry = (name, .object (fill mine theirs)) := by
  unfold mergeProperty at h
  split at h
  · rcases List.mem_append.mp h with hown | hnew
    · exact Or.inl hown
    · exact Or.inr (Or.inl (List.mem_singleton.mp hnew))
  · case h_2 mine hfind =>
    split at h
    · case h_1 theirs =>
      rcases Members.mem_set h with heq | hown
      · exact Or.inr (Or.inr ⟨mine, theirs, hfind, rfl, heq⟩)
      · exact Or.inl hown
    · exact Or.inl h
  · exact Or.inl h

theorem unique_mergeProperty {name : String} {inherited : Value}
    (hown : Value.Unique (.object own)) (hinherited : Value.Unique inherited) :
    Value.Unique (.object (mergeProperty own name inherited)) := by
  rw [Value.unique_object_iff]
  constructor
  · unfold mergeProperty
    split
    · case h_1 hfind =>
      exact Members.uniqueKeys_append hown.keys (Members.find?_eq_none_iff.mp hfind)
    · split
      · exact Members.uniqueKeys_set hown.keys
      · exact hown.keys
    · exact hown.keys
  · intro entry hentry
    rcases mem_mergeProperty hentry with hold | rfl | ⟨mine, theirs, hfind, rfl, rfl⟩
    · exact (Value.unique_object_iff.mp hown).2 entry hold
    · exact hinherited
    · exact unique_fill (hown.find? hfind) hinherited

theorem unique_mergeProperties (hown : Value.Unique (.object own))
    (hparent : Value.Unique (.object parent)) :
    Value.Unique (.object (mergeProperties own parent)) := by
  have hentries := (Value.unique_object_iff.mp hparent).2
  apply List.foldlRecOn (motive := fun done : Members => Value.Unique (.object done)) parent _ hown
  intro done hdone entry hentry
  exact unique_mergeProperty hdone (hentries entry hentry)

/-! ## The whole node -/

/-- The properties of a node that declares `own` and whose parent declares `inherited`. -/
def mergedProperties : Option Value → Option Value → Option Value
  | some (.object mine), some (.object theirs) => some (.object (mergeProperties mine theirs))
  | some mine, _ => some mine
  | none, inherited => inherited

@[simp] theorem mergedProperties_none (own : Option Value) : mergedProperties own none = own := by
  cases own with
  | none => rfl
  | some v => cases v <;> rfl

/-- Merged properties are inherited, the node's own, or merged from both. -/
theorem mergedProperties_eq_object {mine inherited : Option Value} {members : Members}
    (h : mergedProperties mine inherited = some (.object members)) :
    (mine = none ∧ inherited = some (.object members)) ∨ mine = some (.object members) ∨
      ∃ own theirs, mine = some (.object own) ∧ inherited = some (.object theirs) ∧
        members = mergeProperties own theirs := by
  cases mine with
  | none => exact Or.inl ⟨rfl, h⟩
  | some v =>
    refine Or.inr ?_
    cases v with
    | object own =>
      cases inherited with
      | none => exact Or.inl (by simpa using h)
      | some w =>
        cases w with
        | object theirs =>
          simp only [mergedProperties, Option.some.injEq, Value.object.injEq] at h
          exact Or.inr ⟨own, theirs, rfl, rfl, h.symm⟩
        | _ => exact Or.inl (by simpa [mergedProperties] using h)
    | _ => simp [mergedProperties] at h

theorem find?_extend (hu : Members.UniqueKeys parent) :
    Members.find? key (extend own parent) =
      if key = "properties" then
        mergedProperties (Members.find? key own) (Members.find? key parent)
      else (Members.find? key own).or (Members.find? key parent) := by
  have hfilled : ∀ other,
      Members.find? other (fill own (Members.swapErase "properties" parent)) =
        (Members.find? other own).or
          (if "properties" = other then none else Members.find? other parent) := by
    intro other
    rw [find?_fill, Members.find?_swapErase hu]
  unfold extend
  by_cases hkey : key = "properties"
  · subst hkey
    rw [if_pos rfl]
    cases hparent : Members.find? "properties" parent with
    | none =>
      simp only [hfilled, if_true, Option.or_none, mergedProperties_none]
    | some theirs =>
      simp only [hfilled, if_true, Option.or_none]
      cases hown : Members.find? "properties" own with
      | none =>
        simp only [Members.find?_append, hfilled, if_true, Option.or_none, hown, Option.none_or]
        rfl
      | some mine =>
        cases mine with
        | object mine =>
          cases theirs <;> simp [Members.find?_set, hfilled, hown, mergedProperties]
        | _ => simp [hfilled, hown, mergedProperties]
  · have hne : ¬ "properties" = key := fun h => hkey h.symm
    rw [if_neg hkey]
    cases hparent : Members.find? "properties" parent with
    | none => simp only [hfilled, if_neg hne]
    | some theirs =>
      simp only [hfilled, if_true, Option.or_none]
      cases hown : Members.find? "properties" own with
      | none =>
        simp only [Members.find?_append, hfilled, if_neg hne, Members.find?_cons,
          Members.find?_nil, Option.or_none]
      | some mine =>
        cases mine with
        | object mine =>
          cases theirs <;> simp [Members.find?_set, hfilled, hne]
        | _ => simp [hfilled, hne]

theorem uniqueKeys_extend (hown : Members.UniqueKeys own) :
    Members.UniqueKeys (extend own parent) := by
  have hfilled : Members.UniqueKeys (fill own (Members.swapErase "properties" parent)) :=
    uniqueKeys_fill hown
  unfold extend
  cases Members.find? "properties" parent with
  | none => exact hfilled
  | some theirs =>
    dsimp only
    split
    · case h_1 hmine => exact Members.uniqueKeys_append hfilled (Members.find?_eq_none_iff.mp hmine)
    · split
      · exact Members.uniqueKeys_set hfilled
      · exact hfilled
    · exact hfilled

theorem unique_extend (hown : Value.Unique (.object own))
    (hparent : Value.Unique (.object parent)) :
    Value.Unique (.object (extend own parent)) := by
  have hfilled : Value.Unique (.object (fill own (Members.swapErase "properties" parent))) :=
    unique_fill hown hparent.swapErase
  unfold extend
  cases hprops : Members.find? "properties" parent with
  | none => exact hfilled
  | some theirs =>
    have htheirs : Value.Unique theirs := hparent.find? hprops
    cases hmine : Members.find? "properties" (fill own (Members.swapErase "properties" parent)) with
    | none =>
      simp only [hmine]
      have hadded : Value.Unique (.object (Members.addMissing
          (fill own (Members.swapErase "properties" parent)) "properties" theirs)) :=
        hfilled.addMissing htheirs
      rwa [Members.addMissing_of_not_mem (Members.find?_eq_none_iff.mp hmine)] at hadded
    | some mine =>
      simp only [hmine]
      cases mine with
      | object mine =>
        cases theirs with
        | object theirs =>
          exact hfilled.set (unique_mergeProperties (hfilled.find? hmine) htheirs)
        | _ => exact hfilled
      | _ => exact hfilled

/-! ## Inheriting into nothing -/

theorem find?_extend_nil (hu : Members.UniqueKeys parent) :
    Members.find? key (extend [] parent) = Members.find? key parent := by
  rw [find?_extend hu, Members.find?_nil]
  by_cases hkey : key = "properties"
  · subst hkey
    rw [if_pos rfl, mergedProperties]
  · rw [if_neg hkey, Option.none_or]

/-- A node that declares nothing becomes its parent, up to the order of keys. -/
theorem perm_extend_nil (hu : Members.UniqueKeys parent) : (extend [] parent).Perm parent :=
  Members.perm_of_find? (uniqueKeys_extend List.nodup_nil) hu fun _ => find?_extend_nil hu

end Inheritance
end Schemata
