import Schemata.Proofs.Json.Equality
import Schemata.Proofs.Validation.Satisfaction

/-!
# Nodes that demand no more

`Relaxes` compares what two schema nodes say under one key.  If one node relaxes another under
every key, then it is satisfied by every value that satisfies the other
(`entails_of_relaxes`); the policy may become more liberal at the same time.
-/

namespace Schemata.Validation

open Json (Members Number Reordered Value)

/-- Every value that satisfies the first schema satisfies the second one as well, under a policy of
its own. -/
def Entails (policy policy' : Policy) (schema schema' : Value) : Prop :=
  ∀ v, Satisfies policy schema v → Satisfies policy' schema' v

/-- The policies search alike, and the second accepts undeclared keys if the first does. -/
structure Policy.Relaxes (policy policy' : Policy) : Prop where
  search : policy'.search = policy.search
  additional : policy.allowAdditional = true → policy'.allowAdditional = true

theorem Policy.Relaxes.refl (policy : Policy) : policy.Relaxes policy :=
  ⟨rfl, id⟩

/-! ## One key -/

/-- The keys under which a node says more than a facet: its type and its children. -/
def typeAndChildKeys : List String :=
  ["type", "properties", "items"]

/-- The second node declares no type, or all types of the first one. -/
def TypeRelaxes (found found' : Option Value) : Prop :=
  ∀ decl', (found'.bind fun v => (TypeDecl.ofValue v).toOption) = some decl' →
    ∃ decl, (found.bind fun v => (TypeDecl.ofValue v).toOption) = some decl ∧
      decl.members ⊆ decl'.members

/-- The second node has the facet from the first, if at all; to say nothing about undeclared keys
is a statement as well. -/
structure FacetRelaxes (key : String) (found found' : Option Value) : Prop where
  kept : ∀ x', found' = some x' → ∃ x, found = some x ∧ Reordered x x'
  silent : key = "additionalProperties" → found' = none → found = none

/-- Both nodes declare the same properties, with schemas that demand no more in the second. -/
structure PropertiesRelax (policy policy' : Policy) (children children' : Members) : Prop where
  schemas : ∀ entry' ∈ children', ∃ entry ∈ children, entry.1 = entry'.1 ∧
    Entails policy policy' entry.2 entry'.2 ∧ (Required entry'.2 → Required entry.2)
  names : Members.keys children ⊆ Members.keys children'

/-- The schemas of items demand no more in the second node. -/
structure ItemsRelax (policy policy' : Policy) (found found' : Option Value) : Prop where
  item : ∀ item', found' = some item' → (∀ tuple, item' ≠ .array tuple) →
    ∃ item, found = some item ∧ (∀ tuple, item ≠ .array tuple) ∧ Entails policy policy' item item'
  tuple : ∀ tuple', found' = some (.array tuple') →
    ∃ tuple, found = some (.array tuple) ∧ List.Forall₂ (Entails policy policy') tuple tuple'

/-- The properties declared by what a node has under `properties`. -/
def declaredBy : Option Value → Members
  | some (.object children) => children
  | _ => []

/-- What the second node says under a key demands no more than what the first one says. -/
structure Relaxes (policy policy' : Policy) (key : String) (found found' : Option Value) :
    Prop where
  type : key = "type" → TypeRelaxes found found'
  properties : key = "properties" →
    PropertiesRelax policy policy' (declaredBy found) (declaredBy found')
  items : key = "items" → ItemsRelax policy policy' found found'
  facet : key ∉ typeAndChildKeys → FacetRelaxes key found found'

/-! ## One node -/

section Nodes

variable {policy policy' : Policy} {node node' : Members}

theorem declared_eq : declared node = declaredBy (Members.find? "properties" node) := by
  unfold declared
  cases Members.find? "properties" node with
  | none => rfl
  | some v => cases v <;> rfl

theorem satisfies_zip_of_entails {tuple tuple' values : List Value}
    (h : List.Forall₂ (Entails policy policy') tuple tuple')
    (hpairs : ∀ pair ∈ tuple.zip values, Satisfies policy pair.1 pair.2) :
    ∀ pair ∈ tuple'.zip values, Satisfies policy' pair.1 pair.2 := by
  induction h generalizing values with
  | nil => simp
  | cons hfirst _ ih =>
    cases values with
    | nil => simp
    | cons v values =>
      rw [List.zip_cons_cons, List.forall_mem_cons] at hpairs ⊢
      exact ⟨hfirst v hpairs.1, ih hpairs.2⟩

theorem FacetRelaxes.found_eq {key : String} {found : Option Value} {x : Value}
    (h : FacetRelaxes key found (some x)) (harray : ∀ items, x ≠ .array items)
    (hobject : ∀ members, x ≠ .object members) : found = some x := by
  obtain ⟨y, hy, hyx⟩ := h.kept x rfl
  rw [hy, hyx.symm.eq_of_ne_container harray hobject]

variable (h : ∀ key, Relaxes policy policy' key (Members.find? key node)
  (Members.find? key node'))

include h

theorem find?_of_relaxes {key : String} {x : Value} (hkey : key ∉ typeAndChildKeys)
    (harray : ∀ items, x ≠ .array items) (hobject : ∀ members, x ≠ .object members)
    (hfind : Members.find? key node' = some x) : Members.find? key node = some x :=
  ((hfind ▸ (h key).facet hkey :)).found_eq harray hobject

theorem limitOf?_of_relaxes {key : String} {limit : Nat} (hkey : key ∉ typeAndChildKeys)
    (hlimit : limitOf? key node' = some limit) : limitOf? key node = some limit := by
  obtain ⟨x, hfind, hx⟩ := Option.bind_eq_some_iff.mp hlimit
  have hfind' : Members.find? key node = some x := by
    refine find?_of_relaxes h hkey ?_ ?_ hfind
    · rintro items rfl
      simp [Facets.limit?] at hx
    · rintro members rfl
      simp [Facets.limit?] at hx
  rw [limitOf?, hfind']
  exact hx

theorem listed_of_relaxes {v : Value} (hlisted : Listed node v) : Listed node' v := by
  intro allowed' hallowed'
  obtain ⟨x, hfind, hx⟩ := ((h "enum").facet (by decide)).kept _ hallowed'
  obtain ⟨allowed, rfl, hitems⟩ := hx.symm.exists_array
  have hany : (allowed.any fun a => a.equal v) = true :=
    List.any_eq_true.mpr (hlisted allowed hfind)
  rw [← Value.any_equal_left hitems] at hany
  exact List.any_eq_true.mp hany

theorem numberFits_of_relaxes {n : Number} (hfits : NumberFits node n) : NumberFits node' n where
  minimum bound hbound :=
    hfits.minimum bound (find?_of_relaxes h (by decide) (by simp) (by simp) hbound)
  maximum bound hbound :=
    hfits.maximum bound (find?_of_relaxes h (by decide) (by simp) (by simp) hbound)
  listed := listed_of_relaxes h hfits.listed

theorem stringFits_of_relaxes (hpolicy : policy.Relaxes policy') {s : String}
    (hfits : StringFits policy node s) : StringFits policy' node' s where
  pattern pattern hpattern := by
    rw [hpolicy.search]
    exact hfits.pattern pattern (find?_of_relaxes h (by decide) (by simp) (by simp) hpattern)
  minLength limit hlimit := hfits.minLength limit (limitOf?_of_relaxes h (by decide) hlimit)
  maxLength limit hlimit := hfits.maxLength limit (limitOf?_of_relaxes h (by decide) hlimit)
  listed := listed_of_relaxes h hfits.listed

theorem arrayFits_of_relaxes {values : List Value} (hfits : ArrayFits node values) :
    ArrayFits node' values where
  minItems limit hlimit := hfits.minItems limit (limitOf?_of_relaxes h (by decide) hlimit)
  maxItems limit hlimit := hfits.maxItems limit (limitOf?_of_relaxes h (by decide) hlimit)
  distinct hunique :=
    hfits.distinct (find?_of_relaxes h (by decide) (by simp) (by simp) hunique)

theorem acceptsOthers_of_relaxes (hpolicy : policy.Relaxes policy')
    (haccepts : AcceptsOthers policy node) : AcceptsOthers policy' node' := by
  have hfacet := (h "additionalProperties").facet (by decide)
  unfold AcceptsOthers at haccepts ⊢
  cases hfind : Members.find? "additionalProperties" node' with
  | none =>
    rw [hfacet.silent rfl hfind] at haccepts
    exact hpolicy.additional haccepts
  | some x =>
    rw [hfind] at hfacet
    cases x with
    | null =>
      rw [hfacet.found_eq (by simp) (by simp)] at haccepts
      exact hpolicy.additional haccepts
    | bool b => rwa [hfacet.found_eq (by simp) (by simp)] at haccepts
    | _ => trivial

theorem satisfiesAs_array_of_relaxes {values : List Value} (hfits : ArrayFits node values)
    (hitem : ∀ item, Members.find? "items" node = some item → (∀ tuple, item ≠ .array tuple) →
      ∀ v ∈ values, Satisfies policy item v)
    (htuple : ∀ tuple, Members.find? "items" node = some (.array tuple) →
      ∀ pair ∈ tuple.zip values, Satisfies policy pair.1 pair.2) :
    SatisfiesAs policy' node' .array (.array values) := by
  have hitems := (h "items").items rfl
  refine .array (arrayFits_of_relaxes h hfits) ?_ ?_
  · intro item' hfind' hne v hv
    obtain ⟨item, hfind, hne', hentails⟩ := hitems.item item' hfind' hne
    exact hentails v (hitem item hfind hne' v hv)
  · intro tuple' hfind'
    obtain ⟨tuple, hfind, hentails⟩ := hitems.tuple tuple' hfind'
    exact satisfies_zip_of_entails hentails (htuple tuple hfind)

theorem satisfiesAs_object_of_relaxes (hpolicy : policy.Relaxes policy') {members : Members}
    (hpresent : ∀ entry ∈ declared node, ∀ v, Members.find? entry.1 members = some v →
      Satisfies policy entry.2 v)
    (hmissing : ∀ entry ∈ declared node, Members.find? entry.1 members = none →
      ¬ Required entry.2)
    (hkeys : AcceptsOthers policy node ∨
      ∀ key ∈ Members.keys members, key ∈ Members.keys (declared node)) :
    SatisfiesAs policy' node' .object (.object members) := by
  have hproperties := (h "properties").properties rfl
  rw [declared_eq] at hpresent hmissing hkeys
  refine .object ?_ ?_ ?_
  · intro entry' hentry' v hv
    rw [declared_eq] at hentry'
    obtain ⟨entry, hentry, hname, hentails, -⟩ := hproperties.schemas entry' hentry'
    exact hentails v (hpresent entry hentry v (hname ▸ hv))
  · intro entry' hentry' hnone hrequired
    rw [declared_eq] at hentry'
    obtain ⟨entry, hentry, hname, -, hflag⟩ := hproperties.schemas entry' hentry'
    exact hmissing entry hentry (hname ▸ hnone) (hflag hrequired)
  · rw [declared_eq]
    apply hkeys.imp
    · exact acceptsOthers_of_relaxes h hpolicy
    · intro hall key hkey
      exact hproperties.names (hall key hkey)

theorem satisfiesAs_of_relaxes (hpolicy : policy.Relaxes policy') {type : SchemaType} {v : Value}
    (hsatisfied : SatisfiesAs policy node type v) : SatisfiesAs policy' node' type v := by
  cases hsatisfied with
  | any => exact .any
  | null => exact .null
  | boolean => exact .boolean
  | number hfits => exact .number (numberFits_of_relaxes h hfits)
  | integer hwhole hfits => exact .integer hwhole (numberFits_of_relaxes h hfits)
  | string hfits => exact .string (stringFits_of_relaxes h hpolicy hfits)
  | array hfits hitem htuple => exact satisfiesAs_array_of_relaxes h hfits hitem htuple
  | object hpresent hmissing hkeys =>
    exact satisfiesAs_object_of_relaxes h hpolicy hpresent hmissing hkeys

/-- A node that demands no more under every key is satisfied by all that satisfies the other. -/
theorem entails_of_relaxes (hpolicy : policy.Relaxes policy') :
    Entails policy policy' (.object node) (.object node') := by
  intro v hsatisfied
  rw [satisfies_object_iff] at hsatisfied ⊢
  intro decl' hdecl'
  obtain ⟨decl, hdecl, hsubset⟩ := (h "type").type rfl decl' hdecl'
  obtain ⟨type, htype, hsatisfied⟩ := hsatisfied decl hdecl
  exact ⟨type, hsubset htype, satisfiesAs_of_relaxes h hpolicy hsatisfied⟩

end Nodes
end Schemata.Validation
