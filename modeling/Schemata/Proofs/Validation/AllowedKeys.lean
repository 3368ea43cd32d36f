import Schemata.Proofs.Rewriting
import Schemata.Proofs.Validation.Validator

/-!
# A check reads only what the grammar allows

The grammar says which keys a node of each type may declare.  A check against one type looks at
nothing else (`check_ofMembersAs_congr`), apart from `required`, which every node may declare and
which is read by the parent.  So the keys that none of a node's types allows can be erased
everywhere in a schema, and checks go on as before.
-/

namespace Schemata.Validation

open Json (Members Number Value)

/-- A node without the keys that none of its types allows, if its declaration is recognised. -/
def keepAllowed (node : Members) : Members :=
  match Schema.declaration? node with
  | some decl => node.filter fun entry => decl.allows entry.1
  | none => node

example :
    Node.mapNodes keepAllowed (.object [("type", .array [.string "string", .string "array"]),
      ("pattern", .string "x"), ("minimum", .null),
      ("items", .object [("type", .string "null"), ("enum", .array []), ("required", .null)])]) =
    .object [("type", .array [.string "string", .string "array"]), ("pattern", .string "x"),
      ("items", .object [("type", .string "null"), ("required", .null)])] := by
  decide

/-! ## One node -/

section Facets

variable {policy : Policy} {node node' : Members} {path : String}

/-- Both nodes have the same under every key that the type allows, child schemas apart. -/
def AgreeOn (type : SchemaType) (node node' : Members) : Prop :=
  ∀ key, type.allows key = true → key ≠ "properties" → key ≠ "items" →
    Members.find? key node' = Members.find? key node

theorem checkAllowed_congr (henum : Members.find? "enum" node' = Members.find? "enum" node)
    (v : Value) :
    (Facets.ofMembers node').checkAllowed v path = (Facets.ofMembers node).checkAllowed v path := by
  have hallowed : (Facets.ofMembers node').allowed = (Facets.ofMembers node).allowed :=
    congrArg (·.bind Facets.items?) henum
  unfold Facets.checkAllowed
  rw [hallowed]

theorem checkNumber_congr {type : SchemaType} (h : AgreeOn type node node')
    (htype : type = .number ∨ type = .integer) (n : Number) :
    (Facets.ofMembers node').checkNumber n path = (Facets.ofMembers node).checkNumber n path := by
  have hallows : ∀ key ∈ ["minimum", "maximum", "enum"], type.allows key = true := by
    rcases htype with rfl | rfl <;> decide
  have hmin : (Facets.ofMembers node').minimum = (Facets.ofMembers node).minimum :=
    congrArg (·.bind Facets.number?)
      (h "minimum" (hallows _ (by decide)) (by decide) (by decide))
  have hmax : (Facets.ofMembers node').maximum = (Facets.ofMembers node).maximum :=
    congrArg (·.bind Facets.number?)
      (h "maximum" (hallows _ (by decide)) (by decide) (by decide))
  have henum := h "enum" (hallows _ (by decide)) (by decide) (by decide)
  unfold Facets.checkNumber
  rw [hmin, hmax, checkAllowed_congr henum]

theorem checkString_congr (h : AgreeOn .string node node') (s : String) :
    (Facets.ofMembers node').checkString policy s path =
      (Facets.ofMembers node).checkString policy s path := by
  have hpattern : (Facets.ofMembers node').pattern = (Facets.ofMembers node).pattern :=
    congrArg (·.bind Facets.text?) (h "pattern" (by decide) (by decide) (by decide))
  have hmin : (Facets.ofMembers node').minLength = (Facets.ofMembers node).minLength :=
    congrArg (·.bind Facets.limit?) (h "minLength" (by decide) (by decide) (by decide))
  have hmax : (Facets.ofMembers node').maxLength = (Facets.ofMembers node).maxLength :=
    congrArg (·.bind Facets.limit?) (h "maxLength" (by decide) (by decide) (by decide))
  have henum := h "enum" (by decide) (by decide) (by decide)
  unfold Facets.checkString
  rw [hpattern, hmin, hmax, checkAllowed_congr henum]

theorem itemCount?_congr (h : AgreeOn .array node node') (count : Nat) :
    (Facets.ofMembers node').itemCount? count = (Facets.ofMembers node).itemCount? count := by
  have hmin : (Facets.ofMembers node').minItems = (Facets.ofMembers node).minItems :=
    congrArg (·.bind Facets.limit?) (h "minItems" (by decide) (by decide) (by decide))
  have hmax : (Facets.ofMembers node').maxItems = (Facets.ofMembers node).maxItems :=
    congrArg (·.bind Facets.limit?) (h "maxItems" (by decide) (by decide) (by decide))
  unfold Facets.itemCount?
  rw [hmin, hmax]

theorem uniqueItems_congr (h : AgreeOn .array node node') :
    (Facets.ofMembers node').uniqueItems = (Facets.ofMembers node).uniqueItems := by
  have hunique := h "uniqueItems" (by decide) (by decide) (by decide)
  rw [Bool.eq_iff_iff, uniqueItems_eq_true, uniqueItems_eq_true, hunique]

theorem checkKeys_congr (h : AgreeOn .object node node') (names : List String)
    (members : Members) :
    (Facets.ofMembers node').checkKeys policy names members path =
      (Facets.ofMembers node).checkKeys policy names members path := by
  have hadditional : (Facets.ofMembers node').additional = (Facets.ofMembers node).additional :=
    congrArg (·.bind Facets.additional?)
      (h "additionalProperties" (by decide) (by decide) (by decide))
  unfold Facets.checkKeys Facets.acceptsAdditional
  rw [hadditional]

/-- What a check against one type looks at. -/
theorem check_ofMembersAs_congr {type : SchemaType} {v : Value} (h : AgreeOn type node node')
    (hproperties : type = .object → ∀ members,
      (Schema.propertiesOf node').map (·.1) = (Schema.propertiesOf node).map (·.1) ∧
      Schema.checkProperties policy (Schema.propertiesOf node') members path =
        Schema.checkProperties policy (Schema.propertiesOf node) members path)
    (hitems : type = .array → ∀ values,
      Schema.checkItems policy (Schema.itemsOf node') values path =
        Schema.checkItems policy (Schema.itemsOf node) values path) :
    Schema.check policy (Schema.ofMembersAs type node') v path =
      Schema.check policy (Schema.ofMembersAs type node) v path := by
  rw [Schema.ofMembersAs, Schema.ofMembersAs, Schema.check.eq_def, Schema.check.eq_def]
  cases type with
  | any => rfl
  | null => cases v <;> rfl
  | boolean => cases v <;> rfl
  | number =>
    cases v with
    | number n => exact checkNumber_congr h (.inl rfl) n
    | _ => rfl
  | integer =>
    cases v with
    | number n =>
      dsimp only
      rw [checkNumber_congr h (.inr rfl)]
    | _ => rfl
  | string =>
    cases v with
    | string s => exact checkString_congr h s
    | _ => rfl
  | array =>
    cases v with
    | array values =>
      dsimp only
      rw [itemCount?_congr h, uniqueItems_congr h, hitems rfl]
    | _ => rfl
  | object =>
    cases v with
    | object members =>
      obtain ⟨hnames, hchildren⟩ := hproperties rfl members
      dsimp only
      rw [hnames, hchildren, checkKeys_congr h]
    | _ => rfl

end Facets

/-! ## Children -/

section Children

variable {policy : Policy} {path : String} {f : Value → Value}

/-- The schemas check alike, and the parent finds the same under `required`. -/
structure ChecksSame (policy : Policy) (schema schema' : Value) : Prop where
  check : ∀ v path, Schema.check policy (.ofValue schema') v path =
    Schema.check policy (.ofValue schema) v path
  required : (Schema.ofValue schema').facets.required = (Schema.ofValue schema).facets.required

theorem checkProperties_map {children members : Members}
    (h : ∀ entry ∈ children, ChecksSame policy entry.2 (f entry.2)) :
    Schema.checkProperties policy
        (Schema.childrenOf (children.map fun entry => (entry.1, f entry.2))) members path =
      Schema.checkProperties policy (Schema.childrenOf children) members path := by
  induction children with
  | nil => rfl
  | cons entry rest ih =>
    rw [List.forall_mem_cons] at h
    rw [List.map_cons, Schema.childrenOf, Schema.childrenOf, Schema.checkProperties,
      Schema.checkProperties, ih h.2, h.1.required]
    simp only [h.1.check]

theorem checkTuple_map {tuple values : List Value} {index : Nat}
    (h : ∀ item ∈ tuple, ChecksSame policy item (f item)) :
    Schema.checkTuple policy (Schema.tupleOf (tuple.map f)) values path index =
      Schema.checkTuple policy (Schema.tupleOf tuple) values path index := by
  induction tuple generalizing values index with
  | nil => rfl
  | cons item rest ih =>
    rw [List.forall_mem_cons] at h
    cases values with
    | nil => simp [Schema.tupleOf, Schema.checkTuple]
    | cons v values =>
      rw [List.map_cons, Schema.tupleOf, Schema.tupleOf, Schema.checkTuple, Schema.checkTuple,
        h.1.check, ih h.2]

theorem checkEach_congr {item item' : Value} {values : List Value}
    (h : ChecksSame policy item item') :
    Schema.checkItems policy (.each (.ofValue item')) values path =
      Schema.checkItems policy (.each (.ofValue item)) values path := by
  simp only [Schema.checkItems, h.check]

end Children

/-! ## All nodes -/

section Nodes

variable {policy : Policy} {node : Members} {decl : TypeDecl} {path : String}

theorem declaration?_mapParts (rule : Members → Members) :
    Schema.declaration? (Node.mapParts rule node) = Schema.declaration? node := by
  unfold Schema.declaration?
  rw [Node.find?_mapParts_of_ne (by decide) (by decide)]

/-- What an allowed key has in a node of the rewritten schema. -/
theorem find?_keepAllowed {key : String}
    (h : ∀ decl, Schema.declaration? node = some decl → decl.allows key = true) :
    Members.find? key (keepAllowed (Node.mapParts keepAllowed node)) =
      (Members.find? key node).map (Node.mapPart keepAllowed key) := by
  have hfind : Members.find? key (keepAllowed (Node.mapParts keepAllowed node)) =
      Members.find? key (Node.mapParts keepAllowed node) := by
    rw [keepAllowed, declaration?_mapParts]
    cases hdecl : Schema.declaration? node with
    | none => rfl
    | some decl =>
      dsimp only
      rw [Members.find?_filter fun key => decl.allows key, if_pos (h decl hdecl)]
  rw [hfind, Node.find?_mapParts]

theorem find?_keepAllowed_of_ne {key : String}
    (h : ∀ decl, Schema.declaration? node = some decl → decl.allows key = true)
    (hproperties : key ≠ "properties") (hitems : key ≠ "items") :
    Members.find? key (keepAllowed (Node.mapParts keepAllowed node)) =
      Members.find? key node := by
  rw [find?_keepAllowed h, ← Node.find?_mapParts, Node.find?_mapParts_of_ne hproperties hitems]

theorem allows_of_universal {key : String} (hkey : key ∈ SchemaType.universalKeys)
    (hdecl : Schema.declaration? node = some decl) : decl.allows key = true := by
  obtain ⟨type, htype⟩ := List.exists_mem_of_ne_nil _ (Schema.declaration?_eq_some.mp hdecl).1
  refine List.any_eq_true.mpr ⟨type, htype, ?_⟩
  rw [SchemaType.allows, List.contains_iff_mem.mpr hkey, Bool.true_or]

theorem declaration?_keepAllowed :
    Schema.declaration? (keepAllowed (Node.mapParts keepAllowed node)) =
      Schema.declaration? node := by
  unfold Schema.declaration?
  rw [find?_keepAllowed_of_ne (fun decl => allows_of_universal (by decide)) (by decide)
    (by decide)]

theorem declared_keepAllowed
    (h : ∀ decl, Schema.declaration? node = some decl → decl.allows "properties" = true) :
    declared (keepAllowed (Node.mapParts keepAllowed node)) =
      (declared node).map fun entry => (entry.1, Node.mapNodes keepAllowed entry.2) := by
  unfold declared
  rw [find?_keepAllowed h]
  cases Members.find? "properties" node with
  | none => rfl
  | some v =>
    cases v with
    | object children => rw [Option.map_some, Node.mapPart_properties]
    | array items => simp [Node.mapPart]
    | _ => rfl

theorem checkItems_keepAllowed
    (h : ∀ decl, Schema.declaration? node = some decl → decl.allows "items" = true)
    (hparts : ∀ part, Node.Part node part →
      ChecksSame policy part (Node.mapNodes keepAllowed part)) (values : List Value) :
    Schema.checkItems policy
        (Schema.itemsOf (keepAllowed (Node.mapParts keepAllowed node))) values path =
      Schema.checkItems policy (Schema.itemsOf node) values path := by
  rw [itemsOf_eq, itemsOf_eq, find?_keepAllowed h]
  cases hfind : Members.find? "items" node with
  | none => rfl
  | some item =>
    cases item with
    | array tuple =>
      rw [Option.map_some, Node.mapPart_tuple]
      dsimp only
      rw [Schema.checkItems, Schema.checkItems]
      exact checkTuple_map fun item hitem => hparts item (.tupleItem hfind hitem)
    | object members =>
      rw [Option.map_some, Node.mapPart_items (by simp)]
      exact checkEach_congr (hparts _ (.item hfind (by simp)))
    | _ => rfl

theorem check_keepAllowed_as {type : SchemaType} {v : Value}
    (hdecl : Schema.declaration? node = some decl) (htype : type ∈ decl.members)
    (hparts : ∀ part, Node.Part node part →
      ChecksSame policy part (Node.mapNodes keepAllowed part)) :
    Schema.check policy
        (Schema.ofMembersAs type (keepAllowed (Node.mapParts keepAllowed node))) v path =
      Schema.check policy (Schema.ofMembersAs type node) v path := by
  have hallows : ∀ key, type.allows key = true → ∀ decl',
      Schema.declaration? node = some decl' → decl'.allows key = true := by
    intro key hkey decl' hdecl'
    cases hdecl.symm.trans hdecl'
    exact List.any_eq_true.mpr ⟨type, htype, hkey⟩
  apply check_ofMembersAs_congr
  · exact fun key hkey => find?_keepAllowed_of_ne (hallows key hkey)
  · rintro rfl members
    have hdeclared := declared_keepAllowed (hallows "properties" (by decide))
    rw [propertiesOf_eq, propertiesOf_eq, hdeclared]
    refine ⟨?_, checkProperties_map fun entry hentry => hparts _ (part_of_declared hentry)⟩
    rw [childrenOf_eq_map, childrenOf_eq_map]
    simp
  · rintro rfl values
    exact checkItems_keepAllowed (hallows "items" (by decide)) hparts values

theorem required_keepAllowed :
    (Schema.ofValue (.object (keepAllowed (Node.mapParts keepAllowed node)))).facets.required =
      (Schema.ofValue (.object node)).facets.required := by
  rw [Bool.eq_iff_iff, required_iff, required_iff]
  unfold Required
  rw [Value.member?, Value.member?,
    find?_keepAllowed_of_ne (fun decl => allows_of_universal (by decide)) (by decide) (by decide)]

/-- Checks go on as before if no node has a key that its types do not allow. -/
theorem checksSame_keepAllowed (schema : Value) :
    ChecksSame policy schema (Node.mapNodes keepAllowed schema) := by
  induction schema using Node.nodeInduction with
  | leaf schema hleaf =>
    cases schema with
    | object node => exact absurd rfl (hleaf node)
    | _ => exact ⟨fun v path => rfl, rfl⟩
  | node node ih =>
    refine ⟨fun v path => ?_, required_keepAllowed⟩
    rw [Node.mapNodes, check_ofValue_object, check_ofValue_object, declaration?_keepAllowed]
    cases hdecl : Schema.declaration? node with
    | none => rfl
    | some decl =>
      cases decl with
      | single type => exact check_keepAllowed_as hdecl (List.mem_singleton_self type) ih
      | union types =>
        dsimp only
        rw [tryMembers_congr]
        intro type htype
        rw [check_keepAllowed_as hdecl htype ih]
        exact .refl _

end Nodes

namespace Validator

variable {μ : Type}

/-- A check adds the same messages if the keys that no type of a node allows are erased in the
schema, whatever was checked before. -/
theorem check_reads_allowed_keys (v : Validator μ) (value schema : Value) (path : String)
    (errors : Errors) :
    (v.check value (Node.mapNodes keepAllowed schema) path errors).1 =
      (v.check value schema path errors).1 := by
  refine check_congr rfl ?_ errors
  rw [(checksSame_keepAllowed schema).check]
  exact .refl _

end Validator
end Schemata.Validation
