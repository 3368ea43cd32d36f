import Schemata.Pattern.Search
import Schemata.Proofs.Json.Equality
import Schemata.Proofs.Validation.Log
import Schemata.Proofs.Validation.Relaxation
import Schemata.Proofs.Validation.Validator

/-!
# The order of keys is without effect

A check walks through a schema in the order of its keys, and meets undeclared keys in the order of
the instance; several places can have one path.  `checksAlike_of_reordered` shows that instances
that differ in the order of keys meet the same at every path, place by place, which is all that a
collection of messages keeps.  Reordered schemas relax one another, so they are satisfied by the
same instances; only the order of their messages may differ, since it follows the schema.
-/

namespace Schemata.Validation

open Json (Members Reordered Value)

/-! ## Reordered instances -/

section Instances

variable {policy : Policy} {path : String}

/-- A check meets the same at every path in both values. -/
def ChecksAlike (policy : Policy) (v w : Value) : Prop :=
  ∀ schema path, Log.Agree (Schema.check policy schema v path) (Schema.check policy schema w path)

/-- It is enough to check both values against single types. -/
theorem checksAlike_of_types {v w : Value}
    (h : ∀ type facets properties items path,
      Log.Agree (Schema.check policy (.node (some (.single type)) facets properties items) v path)
        (Schema.check policy (.node (some (.single type)) facets properties items) w path)) :
    ChecksAlike policy v w := by
  intro schema path
  obtain ⟨decl, facets, properties, items⟩ := schema
  rw [check_node, check_node (v := w)]
  cases decl with
  | none => exact .refl _
  | some decl =>
    cases decl with
    | single type => exact h type facets properties items path
    | union types =>
      dsimp only
      rw [tryMembers_congr fun type _ => h type facets properties items path]
      exact .refl _

theorem below_injective : Function.Injective (below path) := by
  intro key key' h
  exact (String.append_right_inj _).mp h

/-- Undeclared keys have paths of their own. -/
theorem agree_checkKeys {xs ys : Members} (hperm : (Members.keys xs).Perm (Members.keys ys))
    (hu : Members.UniqueKeys xs) (facets : Facets) (names : List String) (path : String) :
    Log.Agree (facets.checkKeys policy names xs path)
      (facets.checkKeys policy names ys path) := by
  unfold Facets.checkKeys
  split
  · exact .refl _
  · apply Log.Agree.of_perm
    · exact (hperm.filter _).map _
    · rw [List.map_map]
      exact (hu.filter _).map below_injective

/-- Declared properties are looked up, whatever the order of the members. -/
theorem agree_checkProperties {xs ys : Members}
    (hfind : ∀ name, Option.Rel (ChecksAlike policy) (Members.find? name xs)
      (Members.find? name ys))
    (properties : List (String × Schema)) (path : String) :
    Log.Agree (Schema.checkProperties policy properties xs path)
      (Schema.checkProperties policy properties ys path) := by
  induction properties with
  | nil => exact .refl _
  | cons property rest ih =>
    obtain ⟨name, schema⟩ := property
    rw [Schema.checkProperties, Schema.checkProperties]
    refine Log.Agree.append ?_ ih
    have hname := hfind name
    generalize Members.find? name xs = found at hname
    generalize Members.find? name ys = found' at hname
    cases hname with
    | none => exact .refl _
    | some halike => exact halike schema _

theorem checksAlike_object {xs ys : Members} (hu : Members.UniqueKeys xs)
    (hkeys : (Members.keys xs).Perm (Members.keys ys))
    (hfind : ∀ name, Option.Rel (ChecksAlike policy) (Members.find? name xs)
      (Members.find? name ys)) :
    ChecksAlike policy (.object xs) (.object ys) := by
  apply checksAlike_of_types
  intro type facets properties items path
  rw [Schema.check.eq_def, Schema.check.eq_def]
  cases type with
  | object =>
    apply Log.Agree.append
    · exact agree_checkProperties hfind properties path
    · exact agree_checkKeys hkeys hu facets _ path
  | _ => exact .refl _

theorem agree_checkTuple {front back : List Value} {v w : Value} (h : ChecksAlike policy v w)
    (schemas : List Schema) (path : String) (index : Nat) :
    Log.Agree (Schema.checkTuple policy schemas (front ++ v :: back) path index)
      (Schema.checkTuple policy schemas (front ++ w :: back) path index) := by
  induction schemas generalizing front index with
  | nil => simpa [Schema.checkTuple] using Log.Agree.refl _
  | cons schema schemas ih =>
    cases front with
    | nil =>
      rw [List.nil_append, List.nil_append, Schema.checkTuple, Schema.checkTuple]
      exact (h schema _).append (.refl _)
    | cons first front =>
      rw [List.cons_append, List.cons_append, Schema.checkTuple, Schema.checkTuple]
      exact (Log.Agree.refl _).append (ih (index + 1))

theorem agree_checkItems {front back : List Value} {v w : Value} (h : ChecksAlike policy v w)
    (items : Items Schema) (path : String) :
    Log.Agree (Schema.checkItems policy items (front ++ v :: back) path)
      (Schema.checkItems policy items (front ++ w :: back) path) := by
  cases items with
  | free => simpa [Schema.checkItems] using Log.Agree.refl _
  | each schema =>
    simp only [Schema.checkItems, List.zipIdx_append, List.zipIdx_cons, List.flatMap_append,
      List.flatMap_cons]
    exact (Log.Agree.refl _).append ((h schema _).append (.refl _))
  | tuple schemas =>
    rw [Schema.checkItems, Schema.checkItems]
    exact agree_checkTuple h schemas path 0

theorem checksAlike_array {front back : List Value} {v w : Value} (h : ChecksAlike policy v w)
    (hduplicates : Value.hasDuplicates (front ++ v :: back) =
      Value.hasDuplicates (front ++ w :: back)) :
    ChecksAlike policy (.array (front ++ v :: back)) (.array (front ++ w :: back)) := by
  apply checksAlike_of_types
  intro type facets properties items path
  have hlength : (front ++ v :: back).length = (front ++ w :: back).length := by simp
  rw [Schema.check.eq_def, Schema.check.eq_def]
  cases type with
  | array =>
    dsimp only
    rw [hlength, hduplicates]
    cases facets.itemCount? (front ++ w :: back).length with
    | some violation => exact .refl _
    | none => exact (Log.Agree.refl _).append (agree_checkItems h items path)
  | _ => exact .refl _

/-- A check meets the same at every path of a value, whatever the order of its keys. -/
theorem checksAlike_of_reordered {v w : Value} (h : Reordered v w) (hu : v.Unique) :
    ChecksAlike policy v w := by
  induction h with
  | refl v => exact fun schema path => .refl _
  | trans h _ ih ih' =>
    exact fun schema path => (ih hu schema path).trans (ih' (h.unique hu) schema path)
  | @order xs ys hperm =>
    refine checksAlike_object hu.keys (hperm.map _) fun name => ?_
    rw [Members.find?_perm hperm hu.keys]
    cases Members.find? name ys with
    | none => exact .none
    | some v => exact .some fun schema path => .refl _
  | @member front back key v w _ ih =>
    have halike := ih ((Value.unique_object_iff.mp hu).2 (key, v) (by simp))
    refine checksAlike_object hu.keys (by simp [Members.keys]) fun name => ?_
    rcases @Members.find?_middle name front back key v w with heq | ⟨hfind, hfind'⟩
    · rw [heq]
      cases Members.find? name (front ++ (key, w) :: back) with
      | none => exact .none
      | some v => exact .some fun schema path => .refl _
    · rw [hfind, hfind']
      exact .some halike
  | @item front back v w h ih =>
    refine checksAlike_array (ih (hu.item (by simp))) ?_
    -- Duplicates are compared as values, so all items go along, not the reordered one alone.
    refine Value.hasDuplicates_congr ?_ (Value.unique_array_iff.mp hu)
    exact List.rel_append (List.forall₂_same.mpr fun u _ => .refl u)
      (.cons h (List.forall₂_same.mpr fun u _ => .refl u))

end Instances

/-! ## Reordered schemas -/

section Schemas

variable {policy : Policy}

theorem isTrue_congr {v w : Value} (h : Reordered v w) : Facets.isTrue v = Facets.isTrue w := by
  induction h with
  | refl v => rfl
  | trans _ _ ih ih' => exact ih.trans ih'
  | order _ => rfl
  | member _ _ => rfl
  | @item front _ _ _ _ _ => cases front <;> rfl

theorem required_of_reordered {child child' : Value} (h : Reordered child child')
    (hu : child.Unique) (hrequired : Required child') : Required child := by
  obtain ⟨flag, hflag, htrue⟩ := hrequired
  cases child' with
  | object node' =>
    obtain ⟨node, rfl, -, hfind⟩ := h.symm.exists_object (h.unique hu).keys
    have hrel := hfind "required"
    rw [Value.member?] at hflag
    rw [hflag] at hrel
    generalize hfound : Members.find? "required" node = found at hrel
    cases hrel with
    | some hreordered => exact ⟨_, hfound, isTrue_congr hreordered ▸ htrue⟩
  | _ => simp [Value.member?] at hflag

theorem eq_of_forall₂_names {types : List SchemaType} {vs : List Value}
    (h : List.Forall₂ Reordered (types.map fun type => .string type.name) vs) :
    vs = types.map fun type => .string type.name := by
  induction types generalizing vs with
  | nil =>
    cases h
    rfl
  | cons type types ih =>
    cases h with
    | cons hfirst hrest =>
      rw [List.map_cons, ih hrest, hfirst.eq_of_ne_container (by simp) (by simp)]

/-- The order of keys plays no part in a declaration. -/
theorem eq_toValue_of_reordered {decl : TypeDecl} {v : Value} (h : Reordered v decl.toValue) :
    v = decl.toValue := by
  cases decl with
  | single type =>
    exact h.symm.eq_of_ne_container (by simp [TypeDecl.toValue]) (by simp [TypeDecl.toValue])
  | union types =>
    obtain ⟨vs, rfl, hitems⟩ := h.symm.exists_array
    rw [TypeDecl.toValue, eq_of_forall₂_names hitems]

section Node

variable {found found' : Option Value} (h : Option.Rel Reordered found found')

include h

theorem typeRelaxes_of_reordered : TypeRelaxes found found' := by
  intro decl' hdecl'
  cases h with
  | none => exact ⟨decl', hdecl', List.Subset.refl _⟩
  | @some x x' hx =>
    have hok : TypeDecl.ofValue x' = .ok decl' := by
      rw [Option.bind_some] at hdecl'
      cases hvalue : TypeDecl.ofValue x' with
      | ok decl => simpa [hvalue, Except.toOption] using hdecl'
      | error e => simp [hvalue, Except.toOption] at hdecl'
    obtain ⟨-, rfl⟩ := TypeDecl.ofValue_eq_ok.mp hok
    obtain rfl := eq_toValue_of_reordered hx
    exact ⟨decl', hdecl', List.Subset.refl _⟩

theorem facetRelaxes_of_reordered {key : String} : FacetRelaxes key found found' where
  kept x' hx' := by
    subst hx'
    cases h with
    | some hx => exact ⟨_, rfl, hx⟩
  silent _ hnone := by
    subst hnone
    cases h
    rfl

theorem declaredBy_reordered (hu : ∀ x, found = some x → x.Unique) :
    Members.UniqueKeys (declaredBy found) ∧ Members.UniqueKeys (declaredBy found') ∧
      ∀ name, Option.Rel Reordered (Members.find? name (declaredBy found))
        (Members.find? name (declaredBy found')) := by
  have hempty : Members.UniqueKeys [] := List.nodup_nil
  cases h with
  | none => exact ⟨hempty, hempty, fun name => .none⟩
  | @some x x' hx =>
    cases x with
    | object children =>
      obtain ⟨children', rfl, hu', hfind⟩ := hx.exists_object (hu _ rfl).keys
      exact ⟨(hu _ rfl).keys, hu', hfind⟩
    | array items =>
      obtain ⟨items', rfl, -⟩ := hx.exists_array
      exact ⟨hempty, hempty, fun name => .none⟩
    | _ =>
      obtain rfl := hx.eq_of_ne_container (by simp) (by simp)
      exact ⟨hempty, hempty, fun name => .none⟩

theorem propertiesRelax_of_reordered (hu : ∀ x, found = some x → x.Unique)
    (hbelow : ∀ entry ∈ declaredBy found, entry.2.Unique ∧ ∀ child', Reordered entry.2 child' →
      Entails policy policy entry.2 child') :
    PropertiesRelax policy policy (declaredBy found) (declaredBy found') := by
  obtain ⟨hkeys, hkeys', hfind⟩ := declaredBy_reordered h hu
  constructor
  · intro entry' hentry'
    have hrel := hfind entry'.1
    rw [Members.find?_of_mem hkeys' hentry'] at hrel
    generalize hfound : Members.find? entry'.1 (declaredBy found) = child at hrel
    cases hrel with
    | @some child _ hchild =>
      have hmem : (entry'.1, child) ∈ declaredBy found := Members.mem_of_find? hfound
      obtain ⟨hunique, hentails⟩ := hbelow _ hmem
      exact ⟨_, hmem, rfl, hentails _ hchild, required_of_reordered hchild hunique⟩
  · intro name hname
    by_contra hmissing
    have hrel := hfind name
    rw [Members.find?_eq_none_iff.mpr hmissing] at hrel
    generalize hfound : Members.find? name (declaredBy found) = child at hrel
    cases hrel
    exact Members.find?_eq_none_iff.mp hfound hname

theorem itemsRelax_of_reordered
    (hitem : ∀ item, found = some item → (∀ tuple, item ≠ .array tuple) → ∀ item',
      Reordered item item' → Entails policy policy item item')
    (htuple : ∀ tuple, found = some (.array tuple) → ∀ item ∈ tuple, ∀ item',
      Reordered item item' → Entails policy policy item item') :
    ItemsRelax policy policy found found' := by
  constructor
  · intro item' hitem' hne
    subst hitem'
    cases h with
    | @some item _ hreordered =>
      have hne' : ∀ tuple, item ≠ .array tuple := by
        rintro tuple rfl
        obtain ⟨tuple', rfl, -⟩ := hreordered.exists_array
        exact hne tuple' rfl
      exact ⟨item, rfl, hne', hitem item rfl hne' item' hreordered⟩
  · intro tuple' htuple'
    subst htuple'
    cases h with
    | some hreordered =>
      obtain ⟨tuple, rfl, -⟩ := hreordered.symm.exists_array
      obtain ⟨_, heq, hitems⟩ := hreordered.exists_array
      cases heq
      refine ⟨tuple, rfl, ?_⟩
      have hbelow := htuple tuple rfl
      clear htuple hitem hreordered
      induction hitems with
      | nil => exact .nil
      | cons hfirst _ ih =>
        rw [List.forall_mem_cons] at hbelow
        exact .cons (hbelow.1 _ hfirst) (ih hbelow.2)

end Node

/-- Reordering the keys of a schema takes no value away from those that satisfy it. -/
theorem entails_of_reordered {schema schema' : Value} (h : Reordered schema schema')
    (hu : schema.Unique) : Entails policy policy schema schema' := by
  -- Not on `h`: a step inside `properties` reorders an object that is no schema.
  induction schema using Node.nodeInduction generalizing schema' with
  | leaf schema hleaf =>
    intro v _
    refine .undeclared fun node' hnode' => ?_
    subst hnode'
    obtain ⟨node, rfl, -⟩ := h.symm.exists_object (h.unique hu).keys
    exact absurd rfl (hleaf node)
  | node node ih =>
    obtain ⟨node', rfl, -, hfind⟩ := h.exists_object hu.keys
    have hpart : ∀ part, Node.Part node part → part.Unique ∧ ∀ part', Reordered part part' →
        Entails policy policy part part' :=
      fun part hpart => ⟨hpart.unique hu, fun part' h => ih part hpart h (hpart.unique hu)⟩
    refine entails_of_relaxes (fun key => ?_) (.refl policy)
    constructor
    · rintro rfl
      exact typeRelaxes_of_reordered (hfind "type")
    · rintro rfl
      refine propertiesRelax_of_reordered (hfind "properties") (fun x => hu.find?) ?_
      intro entry hentry
      rw [← declared_eq] at hentry
      exact hpart entry.2 (part_of_declared hentry)
    · rintro rfl
      apply itemsRelax_of_reordered (hfind "items")
      · exact fun item hitem hne => (hpart item (.item hitem hne)).2
      · exact fun tuple htuple item hitem => (hpart item (.tupleItem htuple hitem)).2
    · exact fun _ => facetRelaxes_of_reordered (hfind key)

theorem satisfies_congr {schema schema' v : Value} (h : Reordered schema schema')
    (hu : schema.Unique) : Satisfies policy schema v ↔ Satisfies policy schema' v :=
  ⟨entails_of_reordered h hu v, entails_of_reordered h.symm (h.unique hu) v⟩

end Schemas

namespace Validator

variable {μ : Type}

/-- Reordering the keys of an instance changes neither its report nor the messages that a check
adds, and reordering the keys of a schema does not change the code; whatever the validators were
used for before. -/
theorem reordering_is_without_effect (engine : Engine μ) (allowAdditional : Bool)
    (earlier earlier' : List (Value × Value)) :
    let v := (fresh engine allowAdditional).afterAll earlier
    let v' := (fresh engine allowAdditional).afterAll earlier'
    (∀ value value' schema, Reordered value value' → value.Unique →
      (v.validateValue value schema).1 = (v'.validateValue value' schema).1 ∧
        ∀ path errors,
          (v.check value schema path errors).1 = (v'.check value' schema path errors).1) ∧
      ∀ value schema schema', Reordered schema schema' → schema.Unique →
        (v.validateValue value schema).1.code = (v'.validateValue value schema').1.code := by
  intro v v'
  have hpolicy : v'.policy = v.policy := by
    rw [policy_afterAll_fresh, policy_afterAll_fresh]
  constructor
  · intro value value' schema h hu
    have hcheck : ∀ path errors,
        (v.check value schema path errors).1 = (v'.check value' schema path errors).1 :=
      fun path errors => check_congr hpolicy (checksAlike_of_reordered h hu _ path) errors
    exact ⟨congrArg Report.ofErrors (hcheck "$" .empty), hcheck⟩
  · intro value schema schema' h hu
    apply code_congr
    rw [hpolicy]
    exact satisfies_congr h hu

/-- An object in which the path `$.a.b` leads to two places. -/
def crossed : Value :=
  .object [("a", .object [("b", .null), ("c", .null)]), ("a.b", .null)]

def crossedReordered : Value :=
  .object [("a.b", .null), ("a", .object [("c", .null), ("b", .null)])]

/-- A schema that declares `a` alone, as an object without keys. -/
def narrowSchema : Value :=
  .object [("type", .string "object"),
    ("properties", .object [("a", .object [("type", .string "object"), ("id", .null)])])]

def narrowSchemaReordered : Value :=
  .object [("properties", .object [("a", .object [("id", .null), ("type", .string "object")])]),
    ("type", .string "object")]

theorem crossed_is_reported_alike :
    let v := (fresh Pattern.engine false).afterAll []
    Reordered crossed crossedReordered ∧ crossed.Unique ∧
      Reordered narrowSchema narrowSchemaReordered ∧ narrowSchema.Unique ∧
      (v.validateValue crossed narrowSchema).1 = (v.validateValue crossedReordered narrowSchema).1 ∧
      (v.validateValue crossed narrowSchema).1.code =
        (v.validateValue crossed narrowSchemaReordered).1.code ∧
      (v.validateValue crossed narrowSchema).1.errors.entries =
        [("$.a.b", ["is not listed in schema", "is not listed in schema"]),
          ("$.a.c", ["is not listed in schema"])] := by
  have hinstance : Reordered crossed crossedReordered :=
    .trans (.order (.swap _ _ _))
      (@Reordered.member [("a.b", .null)] [] "a" _ _ (.order (.swap _ _ _)))
  have hschema : Reordered narrowSchema narrowSchemaReordered :=
    .trans (.order (.swap _ _ _))
      (@Reordered.member [] [("type", .string "object")] "properties" _ _
        (@Reordered.member [] [] "a" _ _ (.order (.swap _ _ _))))
  have hmerged : crossed.mergeDuplicates = crossed := by decide
  have hmerged' : narrowSchema.mergeDuplicates = narrowSchema := by decide
  have hunique : crossed.Unique := hmerged ▸ Value.unique_mergeDuplicates crossed
  have hunique' : narrowSchema.Unique := hmerged' ▸ Value.unique_mergeDuplicates narrowSchema
  obtain ⟨hreport, hcode⟩ := reordering_is_without_effect Pattern.engine false [] []
  exact ⟨hinstance, hunique, hschema, hunique', (hreport _ _ _ hinstance hunique).1,
    hcode _ _ _ hschema hunique', by decide +kernel⟩

end Validator
end Schemata.Validation
