import Mathlib.Logic.Relation
import Schemata.Pattern.Search
import Schemata.Proofs.Validation.Relaxation
import Schemata.Proofs.Validation.Validator

/-!
# Weakening a schema

`Weakens` erases one key of a node or adds types to its declaration, at any depth.  Every step
entails the next schema, in spite of the checks that stop early, because what satisfies a schema
is told without them; so no chain of steps rejects an instance that was valid before.
-/

namespace Schemata.Validation

open Json (Members Value)

/-- Keys that only narrow what a node accepts. -/
def narrowingKeys : List String :=
  ["type", "pattern", "minLength", "maxLength", "minimum", "maximum", "enum", "minItems",
    "maxItems", "uniqueItems", "items", "required"]

/-- One step towards a schema that demands less, at one of its nodes. -/
inductive Weakens : Value → Value → Prop
  | drop {node : Members} {key : String} : key ∈ narrowingKeys →
      Weakens (.object node) (.object (node.filter fun entry => entry.1 ≠ key))
  | widen {node : Members} {decl : TypeDecl} {types : List SchemaType} :
      Schema.declaration? node = some decl → decl.members ⊆ types →
      Weakens (.object node) (.object (Members.set "type" (TypeDecl.union types).toValue node))
  | property {node children : Members} {name : String} {child child' : Value} :
      Members.find? "properties" node = some (.object children) →
      Members.find? name children = some child → Weakens child child' →
      Weakens (.object node)
        (.object (Members.set "properties" (.object (Members.set name child' children)) node))
  | item {node : Members} {item item' : Value} :
      Members.find? "items" node = some item → Weakens item item' →
      Weakens (.object node) (.object (Members.set "items" item' node))
  | tupleItem {node : Members} {front back : List Value} {item item' : Value} :
      Members.find? "items" node = some (.array (front ++ item :: back)) → Weakens item item' →
      Weakens (.object node) (.object (Members.set "items" (.array (front ++ item' :: back)) node))

/-! ## What a step leaves alone -/

section Keys

variable {policy policy' : Policy} {node : Members} {key : String}

theorem relaxes_self (h : ∀ part, Node.Part node part → Entails policy policy' part part)
    (key : String) :
    Relaxes policy policy' key (Members.find? key node) (Members.find? key node) where
  type _ := fun decl' hdecl' => ⟨decl', hdecl', List.Subset.refl _⟩
  properties hkey := by
    subst hkey
    refine ⟨fun entry hentry => ⟨entry, hentry, rfl, ?_, id⟩, List.Subset.refl _⟩
    rw [← declared_eq] at hentry
    exact h entry.2 (part_of_declared hentry)
  items hkey := by
    subst hkey
    constructor
    · exact fun item hitem hne => ⟨item, hitem, hne, h item (.item hitem hne)⟩
    · exact fun tuple htuple => ⟨tuple, htuple,
        List.forall₂_same.mpr fun item hitem => h item (.tupleItem htuple hitem)⟩
  facet _ := ⟨fun x hx => ⟨x, hx, .refl x⟩, fun _ => id⟩

/-- To say nothing under a key that only narrows is to demand no more. -/
theorem relaxes_none (hkey : key ∈ narrowingKeys) (found : Option Value) :
    Relaxes policy policy' key found none where
  type _ := by simp [TypeRelaxes]
  properties h := absurd hkey (h ▸ by decide)
  items _ := ⟨by simp, by simp⟩
  facet _ := ⟨by simp, fun h => absurd hkey (h ▸ by decide)⟩

/-- The schema stays as it is while the policy becomes more liberal. -/
theorem entails_of_policy (hpolicy : policy.Relaxes policy') (schema : Value) :
    Entails policy policy' schema schema := by
  induction schema using Node.nodeInduction with
  | leaf schema hleaf => exact fun v _ => .undeclared fun node h => absurd h (hleaf node)
  | node node ih => exact entails_of_relaxes (relaxes_self ih) hpolicy

theorem entails_set {x : Value}
    (h : Relaxes policy policy key (Members.find? key node) (some x)) :
    Entails policy policy (.object node) (.object (Members.set key x node)) := by
  refine entails_of_relaxes (fun other => ?_) (.refl policy)
  rw [Members.find?_set]
  by_cases hother : key = other
  · subst hother
    rwa [if_pos rfl]
  · rw [if_neg hother]
    exact relaxes_self (fun part _ v => id) other

/-! ## What a step changes -/

theorem relaxes_widen {decl : TypeDecl} {types : List SchemaType}
    (hdecl : Schema.declaration? node = some decl) (htypes : decl.members ⊆ types) :
    Relaxes policy policy "type" (Members.find? "type" node)
      (some (TypeDecl.union types).toValue) where
  type _ := by
    obtain ⟨hne, -⟩ := Schema.declaration?_eq_some.mp hdecl
    have hok : TypeDecl.ofValue (TypeDecl.union types).toValue = .ok (.union types) :=
      TypeDecl.ofValue_eq_ok.mpr ⟨fun hnil => hne (List.subset_nil.mp (hnil ▸ htypes)), rfl⟩
    intro decl' hdecl'
    rw [Option.bind_some, hok] at hdecl'
    cases hdecl'
    exact ⟨decl, hdecl, htypes⟩
  properties h := absurd h (by decide)
  items h := absurd h (by decide)
  facet h := absurd (by decide) h

theorem relaxes_property {children : Members} {name : String} {child child' : Value}
    (hprops : Members.find? "properties" node = some (.object children))
    (hchild : Members.find? name children = some child) (h : Entails policy policy child child')
    (hrequired : Required child' → Required child) :
    Relaxes policy policy "properties" (Members.find? "properties" node)
      (some (.object (Members.set name child' children))) where
  type h := absurd h (by decide)
  properties _ := by
    rw [hprops]
    constructor
    · intro entry' hentry'
      rcases Members.mem_set hentry' with rfl | hkept
      · exact ⟨(name, child), Members.mem_of_find? hchild, rfl, h, hrequired⟩
      · exact ⟨entry', hkept, rfl, fun v => id, id⟩
    · intro key hkey
      have hname : name ∈ Members.keys children :=
        List.mem_map_of_mem (Members.mem_of_find? hchild)
      change key ∈ Members.keys (Members.set name child' children)
      rwa [Members.keys_set_of_has hname]
  items h := absurd h (by decide)
  facet h := absurd (by decide) h

/-- What weakens is a node before and after. -/
theorem Weakens.ne_array {schema schema' : Value} (h : Weakens schema schema') :
    (∀ items, schema ≠ .array items) ∧ ∀ items, schema' ≠ .array items := by
  cases h <;> simp

theorem relaxes_item {item item' : Value} (hitem : Members.find? "items" node = some item)
    (hstep : Weakens item item') (h : Entails policy policy item item') :
    Relaxes policy policy "items" (Members.find? "items" node) (some item') where
  type h := absurd h (by decide)
  properties h := absurd h (by decide)
  items _ := by
    constructor
    · rintro _ ⟨⟩ _
      exact ⟨item, hitem, hstep.ne_array.1, h⟩
    · rintro tuple' ⟨⟩
      exact absurd rfl (hstep.ne_array.2 tuple')
  facet h := absurd (by decide) h

theorem relaxes_tupleItem {front back : List Value} {item item' : Value}
    (hitem : Members.find? "items" node = some (.array (front ++ item :: back)))
    (h : Entails policy policy item item') :
    Relaxes policy policy "items" (Members.find? "items" node)
      (some (.array (front ++ item' :: back))) where
  type h := absurd h (by decide)
  properties h := absurd h (by decide)
  items _ := by
    have hrefl : ∀ items : List Value, List.Forall₂ (Entails policy policy) items items :=
      fun items => List.forall₂_same.mpr fun item _ v => id
    constructor
    · rintro _ ⟨⟩ hne
      exact absurd rfl (hne _)
    · rintro _ ⟨⟩
      exact ⟨_, hitem, List.rel_append (hrefl front) (.cons h (hrefl back))⟩
  facet h := absurd (by decide) h

end Keys

/-! ## Steps -/

section Steps

variable {policy : Policy} {schema schema' : Value}

theorem required_of_weakens (h : Weakens schema schema') (hrequired : Required schema') :
    Required schema := by
  obtain ⟨flag, hflag, htrue⟩ := hrequired
  refine ⟨flag, ?_, htrue⟩
  cases h with
  | @drop node key _ =>
    have hfilter := @Members.find?_filter node "required" fun k => decide (k ≠ key)
    rw [Value.member?, hfilter] at hflag
    split at hflag
    · exact hflag
    · contradiction
  | _ =>
    rw [Value.member?, Members.find?_set, if_neg (by decide)] at hflag
    exact hflag

/-- Every step entails the next schema. -/
theorem entails_of_weakens (h : Weakens schema schema') : Entails policy policy schema schema' := by
  induction h with
  | @drop node key hkey =>
    refine entails_of_relaxes (fun other => ?_) (.refl policy)
    rw [Members.find?_filter fun k => decide (k ≠ key)]
    by_cases hother : other = key
    · rw [if_neg (by simpa using hother)]
      exact relaxes_none (hother ▸ hkey) _
    · rw [if_pos (by simpa using hother)]
      exact relaxes_self (fun part _ v => id) other
  | widen hdecl htypes => exact entails_set (relaxes_widen hdecl htypes)
  | property hprops hchild hstep ih =>
    exact entails_set (relaxes_property hprops hchild ih (required_of_weakens hstep))
  | item hitem hstep ih => exact entails_set (relaxes_item hitem hstep ih)
  | tupleItem hitem _ ih => exact entails_set (relaxes_tupleItem hitem ih)

/-- A schema entails what any number of steps make of it. -/
theorem entails_of_weakening (h : Relation.ReflTransGen Weakens schema schema') :
    Entails policy policy schema schema' := by
  induction h with
  | refl => exact fun v => id
  | tail _ hstep ih => exact fun v hv => entails_of_weakens hstep v (ih v hv)

end Steps

namespace Validator

variable {μ : Type}

/-- An instance that is valid under a schema is valid under every schema that is obtained by
weakening it, also if undeclared keys become accepted by default; whatever the validators were
used for before. -/
theorem weakening_keeps_valid (engine : Engine μ) (allowAdditional : Bool)
    (earlier earlier' : List (Value × Value)) {value schema schema' : Value}
    (h : Relation.ReflTransGen Weakens schema schema')
    (hvalid : (((fresh engine allowAdditional).afterAll earlier).validateValue value
      schema).1.code = .valid) :
    (((fresh engine allowAdditional).afterAll earlier').validateValue value
        schema').1.code = .valid ∧
      (((fresh engine true).afterAll earlier').validateValue value schema').1.code = .valid := by
  have hliberal : (Policy.ofEngine engine allowAdditional).Relaxes (.ofEngine engine true) :=
    ⟨rfl, fun _ => rfl⟩
  rw [code_eq_valid_iff, policy_afterAll_fresh] at hvalid ⊢
  rw [code_eq_valid_iff, policy_afterAll_fresh]
  have hweaker := entails_of_weakening h value hvalid
  exact ⟨hweaker, entails_of_policy hliberal schema' value hweaker⟩

def order : Value :=
  .object [("count", .number (.whole 3 (by decide))), ("tags", .array [.string "new"])]

def orderProperties (count tag : Value) : Members :=
  [("count", count), ("tags", .object [("type", .string "array"), ("items", .array [tag])])]

/-- Orders with a schema for their count and one for their first tag. -/
def orderSchema (count tag : Value) : Value :=
  .object [("type", .string "object"), ("properties", .object (orderProperties count tag))]

def integerCount : Members :=
  [("type", .string "integer"), ("required", .bool true)]

def shortTag : Members :=
  [("type", .string "string"), ("maxLength", .number (.whole 3 (by decide)))]

def strictOrder : Value :=
  orderSchema (.object integerCount) (.object shortTag)

def lenientOrder : Value :=
  orderSchema (.object [("type", .string "integer")])
    (.object [("type", .array [.string "null", .string "string"])])

theorem strictOrder_weakens : Relation.ReflTransGen Weakens strictOrder lenientOrder := by
  have hcount : ∀ {count count' tag}, Weakens count count' →
      Weakens (orderSchema count tag) (orderSchema count' tag) := by
    intro count count' tag h
    exact @Weakens.property _ (orderProperties count tag) "count" _ _ rfl rfl h
  have htag : ∀ {count tag tag'}, Weakens tag tag' →
      Weakens (orderSchema count tag) (orderSchema count tag') := by
    intro count tag tag' h
    exact @Weakens.property _ (orderProperties count tag) "tags" _ _ rfl rfl
      (@Weakens.tupleItem _ [] [] _ _ rfl h)
  have hlonger : Weakens strictOrder _ := htag (@Weakens.drop shortTag "maxLength" (by decide))
  have hnull : Weakens (orderSchema (.object integerCount)
      (.object [("type", .string "string")])) _ :=
    htag (@Weakens.widen _ (.single .string) [.null, .string] rfl (by decide))
  have hoptional : Weakens _ lenientOrder :=
    hcount (@Weakens.drop integerCount "required" (by decide))
  exact ((Relation.ReflTransGen.single hlonger).tail hnull).tail hoptional

theorem strict_order_is_lenient :
    Relation.ReflTransGen Weakens strictOrder lenientOrder ∧
      (((fresh Pattern.engine false).afterAll []).validateValue order
        strictOrder).1.code = .valid ∧
      (((fresh Pattern.engine false).afterAll []).validateValue order
        lenientOrder).1.code = .valid ∧
      (((fresh Pattern.engine true).afterAll []).validateValue order
        lenientOrder).1.code = .valid := by
  have hvalid : (((fresh Pattern.engine false).afterAll []).validateValue order
      strictOrder).1.code = .valid := by decide +kernel
  exact ⟨strictOrder_weakens, hvalid,
    weakening_keeps_valid Pattern.engine false [] [] strictOrder_weakens hvalid⟩

end Validator
end Schemata.Validation
