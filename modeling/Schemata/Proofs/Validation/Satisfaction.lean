import Mathlib.Tactic.ByContra
import Mathlib.Tactic.Push
import Schemata.Proofs.Grammar
import Schemata.Proofs.Position
import Schemata.Validation.Validator

/-!
# Satisfying a schema

`Satisfies` says by rules, and without a word about messages, when a value satisfies a schema
document.  A check finds nothing exactly when the value satisfies the schema, whatever member of a
union is tried first and wherever the check stops early; so a report is valid exactly then.
-/

namespace Schemata.Validation

open Json (Members Number Value)

/-! ## The meaning of a schema -/

/-- The type is the declared one of a node, or a member of its list of types. -/
def Declares (node : Members) (type : SchemaType) : Prop :=
  ∃ decl, Schema.declaration? node = some decl ∧ type ∈ decl.members

/-- The limit that a node gives under a key, if it is a whole number that is not negative. -/
def limitOf? (key : String) (node : Members) : Option Nat :=
  (Members.find? key node).bind Facets.limit?

/-- The value equals one of those that the node lists, if it lists any. -/
def Listed (node : Members) (v : Value) : Prop :=
  ∀ allowed, Members.find? "enum" node = some (.array allowed) → ∃ a ∈ allowed, a.equal v = true

/-- The number keeps the bounds of a node, and is listed. -/
structure NumberFits (node : Members) (n : Number) : Prop where
  minimum : ∀ bound, Members.find? "minimum" node = some (.number bound) →
    n.compareValue bound ≠ .lt
  maximum : ∀ bound, Members.find? "maximum" node = some (.number bound) →
    n.compareValue bound ≠ .gt
  listed : Listed node (.number n)

/-- The string matches the pattern of a node, keeps the bounds on its number of characters, and is
listed. -/
structure StringFits (policy : Policy) (node : Members) (s : String) : Prop where
  pattern : ∀ pattern, Members.find? "pattern" node = some (.string pattern) →
    policy.search pattern s = true
  minLength : ∀ limit, limitOf? "minLength" node = some limit → limit ≤ s.length
  maxLength : ∀ limit, limitOf? "maxLength" node = some limit → s.length ≤ limit
  listed : Listed node (.string s)

/-- The array keeps the bounds of a node on its number of items, and repeats none if it must not. -/
structure ArrayFits (node : Members) (values : List Value) : Prop where
  minItems : ∀ limit, limitOf? "minItems" node = some limit → limit ≤ values.length
  maxItems : ∀ limit, limitOf? "maxItems" node = some limit → values.length ≤ limit
  distinct : Members.find? "uniqueItems" node = some (.bool true) →
    values.Pairwise fun a b => a.equal b = false

/-- The properties that a node declares. -/
def declared (node : Members) : Members :=
  match Members.find? "properties" node with
  | some (.object children) => children
  | _ => []

/-- The schema of a property says that the property must be there. -/
def Required (child : Value) : Prop :=
  ∃ flag, child.member? "required" = some flag ∧ Facets.isTrue flag = true

/-- A node accepts keys that it does not declare: it says so, or it says nothing and the policy
accepts them. -/
def AcceptsOthers (policy : Policy) (node : Members) : Prop :=
  match Members.find? "additionalProperties" node with
  | some (.bool b) => b = true
  | some .null | none => policy.allowAdditional = true
  | some _ => True

mutual

/-- The value satisfies the schema. -/
inductive Satisfies (policy : Policy) : Value → Value → Prop
  | undeclared {schema v : Value} :
      (∀ node, schema = .object node → Schema.declaration? node = none) →
        Satisfies policy schema v
  | declared {node : Members} {type : SchemaType} {v : Value} :
      Declares node type → SatisfiesAs policy node type v → Satisfies policy (.object node) v

/-- The value satisfies the node as a value of the type. -/
inductive SatisfiesAs (policy : Policy) : Members → SchemaType → Value → Prop
  | any {node : Members} {v : Value} : SatisfiesAs policy node .any v
  | null {node : Members} : SatisfiesAs policy node .null .null
  | boolean {node : Members} {b : Bool} : SatisfiesAs policy node .boolean (.bool b)
  | number {node : Members} {n : Number} :
      NumberFits node n → SatisfiesAs policy node .number (.number n)
  | integer {node : Members} {n : Number} :
      n.isWhole = true → NumberFits node n → SatisfiesAs policy node .integer (.number n)
  | string {node : Members} {s : String} :
      StringFits policy node s → SatisfiesAs policy node .string (.string s)
  | array {node : Members} {values : List Value} :
      ArrayFits node values →
      (∀ item, Members.find? "items" node = some item → (∀ tuple, item ≠ .array tuple) →
        ∀ v ∈ values, Satisfies policy item v) →
      (∀ tuple, Members.find? "items" node = some (.array tuple) →
        ∀ pair ∈ tuple.zip values, Satisfies policy pair.1 pair.2) →
      SatisfiesAs policy node .array (.array values)
  | object {node members : Members} :
      (∀ entry ∈ declared node, ∀ v, Members.find? entry.1 members = some v →
        Satisfies policy entry.2 v) →
      (∀ entry ∈ declared node, Members.find? entry.1 members = none → ¬ Required entry.2) →
      (AcceptsOthers policy node ∨
        ∀ key ∈ Members.keys members, key ∈ Members.keys (declared node)) →
      SatisfiesAs policy node .object (.object members)

end

/-- A node has a declaration exactly if it is written under `type` and has a member. -/
theorem Schema.declaration?_eq_some {node : Members} {decl : TypeDecl} :
    declaration? node = some decl ↔
      decl.members ≠ [] ∧ Members.find? "type" node = some decl.toValue := by
  have hok : ∀ v, (TypeDecl.ofValue v).toOption = some decl ↔
      decl.members ≠ [] ∧ v = decl.toValue := by
    intro v
    rw [← TypeDecl.ofValue_eq_ok]
    cases TypeDecl.ofValue v <;> simp [Except.toOption]
  rw [and_comm, declaration?, Option.bind_eq_some_iff]
  simp [hok]

/-! ## Facets -/

section Facets

variable {policy : Policy} {node : Members} {path : String}

@[simp] theorem reportIf_eq_nil_iff {condition : Bool} {v : Violation} :
    reportIf condition path v = [] ↔ condition = false := by
  cases condition <;> simp [reportIf]

/-- A facet that is read by kind is there if the key has a value of that kind. -/
theorem facet_eq_some {α : Type} {read : Value → Option α} {write : α → Value} {key : String}
    {a : α} (hread : ∀ v, read v = some a ↔ v = write a) :
    (Members.find? key node).bind read = some a ↔ Members.find? key node = some (write a) := by
  simp [Option.bind_eq_some_iff, hread]

theorem minimum_eq_some {bound : Number} :
    (Facets.ofMembers node).minimum = some bound ↔
      Members.find? "minimum" node = some (.number bound) :=
  facet_eq_some fun v => by cases v <;> simp [Facets.number?]

theorem maximum_eq_some {bound : Number} :
    (Facets.ofMembers node).maximum = some bound ↔
      Members.find? "maximum" node = some (.number bound) :=
  facet_eq_some fun v => by cases v <;> simp [Facets.number?]

theorem pattern_eq_some {pattern : String} :
    (Facets.ofMembers node).pattern = some pattern ↔
      Members.find? "pattern" node = some (.string pattern) :=
  facet_eq_some fun v => by cases v <;> simp [Facets.text?]

theorem allowed_eq_some {allowed : List Value} :
    (Facets.ofMembers node).allowed = some allowed ↔
      Members.find? "enum" node = some (.array allowed) :=
  facet_eq_some fun v => by cases v <;> simp [Facets.items?]

theorem uniqueItems_eq_true :
    (Facets.ofMembers node).uniqueItems = true ↔
      Members.find? "uniqueItems" node = some (.bool true) := by
  unfold Facets.ofMembers
  split <;> simp_all

theorem acceptsAdditional_iff :
    (Facets.ofMembers node).acceptsAdditional policy = true ↔ AcceptsOthers policy node := by
  have hadditional : (Facets.ofMembers node).additional =
      (Members.find? "additionalProperties" node).bind Facets.additional? := rfl
  unfold AcceptsOthers Facets.acceptsAdditional
  rw [hadditional]
  cases Members.find? "additionalProperties" node with
  | none => simp
  | some v => cases v <;> simp [Facets.additional?]

theorem required_iff {child : Value} :
    (Schema.ofValue child).facets.required = true ↔ Required child := by
  cases child with
  | object members =>
    have hrequired : (Schema.ofValue (.object members)).facets.required =
        ((Members.find? "required" members).map Facets.isTrue).getD false := by
      rw [Schema.ofValue, Schema.facets, Facets.ofMembers]
    rw [hrequired]
    cases hfind : Members.find? "required" members <;> simp [Required, Value.member?, hfind]
  | _ =>
    simp [Schema.ofValue, Schema.free, Schema.facets, Facets.ofMembers, Required, Value.member?]

theorem checkAllowed_eq_nil_iff {v : Value} :
    (Facets.ofMembers node).checkAllowed v path = [] ↔ Listed node v := by
  unfold Facets.checkAllowed Listed
  constructor
  · intro h allowed hallowed
    rw [allowed_eq_some.mpr hallowed] at h
    simpa using h
  · intro h
    split
    · rfl
    · case h_2 allowed hallowed => simpa using h allowed (allowed_eq_some.mp hallowed)

theorem checkNumber_eq_nil_iff {n : Number} :
    (Facets.ofMembers node).checkNumber n path = [] ↔ NumberFits node n := by
  unfold Facets.checkNumber
  rw [List.append_eq_nil_iff, List.append_eq_nil_iff, checkAllowed_eq_nil_iff]
  constructor
  · rintro ⟨⟨hmin, hmax⟩, hlisted⟩
    refine ⟨fun bound hbound => ?_, fun bound hbound => ?_, hlisted⟩
    · rw [minimum_eq_some.mpr hbound] at hmin
      simpa using hmin
    · rw [maximum_eq_some.mpr hbound] at hmax
      simpa using hmax
  · rintro ⟨hmin, hmax, hlisted⟩
    refine ⟨⟨?_, ?_⟩, hlisted⟩
    · split
      · rfl
      · case h_2 bound hbound => simpa using hmin bound (minimum_eq_some.mp hbound)
    · split
      · rfl
      · case h_2 bound hbound => simpa using hmax bound (maximum_eq_some.mp hbound)

theorem checkString_eq_nil_iff {s : String} :
    (Facets.ofMembers node).checkString policy s path = [] ↔ StringFits policy node s := by
  unfold Facets.checkString
  rw [List.append_eq_nil_iff, List.append_eq_nil_iff, List.append_eq_nil_iff,
    checkAllowed_eq_nil_iff]
  constructor
  · rintro ⟨⟨⟨hpattern, hmax⟩, hmin⟩, hlisted⟩
    refine ⟨fun pattern h => ?_, fun limit h => ?_, fun limit h => ?_, hlisted⟩
    · rw [pattern_eq_some.mpr h] at hpattern
      simpa using hpattern
    · rw [show (Facets.ofMembers node).minLength = some limit from h] at hmin
      simpa using hmin
    · rw [show (Facets.ofMembers node).maxLength = some limit from h] at hmax
      simpa using hmax
  · rintro ⟨hpattern, hmin, hmax, hlisted⟩
    refine ⟨⟨⟨?_, ?_⟩, ?_⟩, hlisted⟩
    · split
      · rfl
      · case h_2 pattern h => simpa using hpattern pattern (pattern_eq_some.mp h)
    · split
      · rfl
      · case h_2 limit h => simpa using hmax limit h
    · split
      · rfl
      · case h_2 limit h => simpa using hmin limit h

theorem itemCount?_eq_none_iff {count : Nat} :
    (Facets.ofMembers node).itemCount? count = none ↔
      (∀ limit, limitOf? "minItems" node = some limit → limit ≤ count) ∧
        ∀ limit, limitOf? "maxItems" node = some limit → count ≤ limit := by
  have hmin : (Facets.ofMembers node).minItems = limitOf? "minItems" node := rfl
  have hmax : (Facets.ofMembers node).maxItems = limitOf? "maxItems" node := rfl
  unfold Facets.itemCount?
  rw [hmin, hmax]
  cases limitOf? "minItems" node <;> cases limitOf? "maxItems" node <;> simp
  split <;> simp <;> omega

theorem hasDuplicates_eq_false_iff {values : List Value} :
    Value.hasDuplicates values = false ↔ values.Pairwise fun a b => a.equal b = false := by
  induction values with
  | nil => simp [Value.hasDuplicates]
  | cons v rest ih => simp [Value.hasDuplicates, ih]

theorem arrayFits_iff {values : List Value} :
    ArrayFits node values ↔
      (Facets.ofMembers node).itemCount? values.length = none ∧
        ((Facets.ofMembers node).uniqueItems && Value.hasDuplicates values) = false := by
  rw [itemCount?_eq_none_iff, Bool.and_eq_false_imp, uniqueItems_eq_true,
    hasDuplicates_eq_false_iff]
  exact ⟨fun h => ⟨⟨h.minItems, h.maxItems⟩, h.distinct⟩, fun h => ⟨h.1.1, h.1.2, h.2⟩⟩

end Facets

/-! ## Unions -/

theorem memberLog_eq_nil_iff {type : SchemaType} {path : String} {log : Log} :
    memberLog type path log = [] ↔ log = [] := by
  rw [memberLog, List.map_eq_nil_iff, ← List.length_eq_zero_iff, List.length_mergeSort,
    List.length_eq_zero_iff]

/-- If no member passes, all of them are told in turn. -/
theorem tryMembers_of_failing {trial : SchemaType → Log} {path : String}
    {types : List SchemaType} (h : ∀ t ∈ types, trial t ≠ []) :
    tryMembers trial path types =
      some (types.flatMap fun t => memberLog t path (trial t)) := by
  induction types with
  | nil => rfl
  | cons t rest ih =>
    rw [List.forall_mem_cons] at h
    obtain ⟨first, log, hlog⟩ := List.exists_cons_of_ne_nil h.1
    simp [tryMembers, ih h.2, hlog]

theorem tryMembers_eq_none_iff {trial : SchemaType → Log} {path : String}
    {types : List SchemaType} :
    tryMembers trial path types = none ↔ ∃ t ∈ types, trial t = [] := by
  constructor
  · intro hnone
    by_contra hall
    push Not at hall
    simp [tryMembers_of_failing hall] at hnone
  · rintro ⟨t, ht, hpass⟩
    induction types with
    | nil => simp at ht
    | cons first rest ih =>
      unfold tryMembers
      split
      · rfl
      · case h_2 hne =>
        rcases List.mem_cons.mp ht with rfl | hrest
        · exact absurd hpass (by simpa using hne)
        · rw [ih hrest]
          rfl

/-- A union finds nothing exactly if one of its members finds nothing. -/
theorem tryMembers_getD_eq_nil_iff {trial : SchemaType → Log} {path : String}
    {types : List SchemaType} (htypes : types ≠ []) :
    (tryMembers trial path types).getD [] = [] ↔ ∃ t ∈ types, trial t = [] := by
  rw [← @tryMembers_eq_none_iff trial path types]
  constructor
  · intro hnil
    by_contra hsome
    have hall : ∀ t ∈ types, trial t ≠ [] := fun t ht hpass =>
      hsome (tryMembers_eq_none_iff.mpr ⟨t, ht, hpass⟩)
    obtain ⟨t, ht⟩ := List.exists_mem_of_ne_nil _ htypes
    rw [tryMembers_of_failing hall, Option.getD_some, List.flatMap_eq_nil_iff] at hnil
    exact hall t ht (memberLog_eq_nil_iff.mp (hnil t ht))
  · intro hnone
    rw [hnone]
    rfl

/-! ## Children -/

section Children

variable {policy : Policy} {node : Members} {path : String}

theorem childrenOf_eq_map (children : Members) :
    Schema.childrenOf children = children.map fun entry => (entry.1, Schema.ofValue entry.2) := by
  induction children with
  | nil => rfl
  | cons entry rest ih => rw [Schema.childrenOf, ih, List.map_cons]

theorem propertiesOf_eq : Schema.propertiesOf node = Schema.childrenOf (declared node) := by
  unfold declared
  induction node with
  | nil => rfl
  | cons entry rest ih =>
    obtain ⟨key, v⟩ := entry
    rw [Members.find?_cons]
    by_cases hkey : key = "properties"
    · cases v <;> simp [Schema.propertiesOf, hkey, Schema.childrenOf]
    · cases v <;> simp [Schema.propertiesOf, hkey, ih]

theorem itemsOf_eq :
    Schema.itemsOf node =
      match Members.find? "items" node with
      | none => .free
      | some (.array tuple) => .tuple (Schema.tupleOf tuple)
      | some item => .each (Schema.ofValue item) := by
  induction node with
  | nil => rfl
  | cons entry rest ih =>
    obtain ⟨key, v⟩ := entry
    rw [Members.find?_cons]
    by_cases hkey : key = "items"
    · cases v <;> simp [Schema.itemsOf, hkey]
    · cases v <;> simp [Schema.itemsOf, hkey, ih]

theorem checkKeys_eq_nil_iff {names : List String} {members : Members} :
    (Facets.ofMembers node).checkKeys policy names members path = [] ↔
      AcceptsOthers policy node ∨ ∀ key ∈ Members.keys members, key ∈ names := by
  unfold Facets.checkKeys
  rw [← acceptsAdditional_iff]
  split <;> simp_all

theorem checkProperties_eq_nil_iff {children members : Members} :
    Schema.checkProperties policy (Schema.childrenOf children) members path = [] ↔
      ∀ entry ∈ children,
        (∀ v, Members.find? entry.1 members = some v →
          Schema.check policy (Schema.ofValue entry.2) v (below path entry.1) = []) ∧
        (Members.find? entry.1 members = none → ¬ Required entry.2) := by
  induction children with
  | nil => simp [Schema.childrenOf, Schema.checkProperties]
  | cons entry rest ih =>
    obtain ⟨name, child⟩ := entry
    rw [Schema.childrenOf, Schema.checkProperties, List.append_eq_nil_iff, ih,
      List.forall_mem_cons, ← required_iff]
    cases Members.find? name members <;> simp

theorem checkTuple_eq_nil_iff {tuple values : List Value} {index : Nat}
    (hcheck : ∀ item ∈ tuple, ∀ v place,
      Schema.check policy (Schema.ofValue item) v place = [] ↔ Satisfies policy item v) :
    Schema.checkTuple policy (Schema.tupleOf tuple) values path index = [] ↔
      ∀ pair ∈ tuple.zip values, Satisfies policy pair.1 pair.2 := by
  induction tuple generalizing values index with
  | nil => simp [Schema.tupleOf, Schema.checkTuple]
  | cons item rest ih =>
    rw [List.forall_mem_cons] at hcheck
    cases values with
    | nil => simp [Schema.tupleOf, Schema.checkTuple]
    | cons v values =>
      rw [Schema.tupleOf, Schema.checkTuple, List.append_eq_nil_iff, hcheck.1, ih hcheck.2,
        List.zip_cons_cons, List.forall_mem_cons]

theorem checkEach_eq_nil_iff {item : Value} {values : List Value}
    (hcheck : ∀ v place,
      Schema.check policy (Schema.ofValue item) v place = [] ↔ Satisfies policy item v) :
    Schema.checkItems policy (.each (Schema.ofValue item)) values path = [] ↔
      ∀ v ∈ values, Satisfies policy item v := by
  rw [Schema.checkItems, List.flatMap_eq_nil_iff]
  simp only [hcheck]
  constructor
  · intro h v hv
    obtain ⟨index, hindex, rfl⟩ := List.getElem_of_mem hv
    exact h (values[index], index) (List.mk_mem_zipIdx_iff_getElem?.mpr (by simp [hindex]))
  · intro h pair hpair
    exact h pair.1 (List.fst_mem_of_mem_zipIdx hpair)

end Children

/-! ## Checks -/

section Checks

variable {policy : Policy} {node : Members} {type : SchemaType} {v : Value} {path : String}

/-- The node as if it declared one type and nothing else about types. -/
def Schema.ofMembersAs (type : SchemaType) (node : Members) : Schema :=
  .node (some (.single type)) (Facets.ofMembers node) (propertiesOf node) (itemsOf node)

/-- The check of a node tries the types it declares. -/
theorem check_node {decl : Option TypeDecl} {facets : Facets}
    {properties : List (String × Schema)} {items : Items Schema} :
    Schema.check policy (.node decl facets properties items) v path =
      match decl with
      | none => []
      | some (.single type) =>
        Schema.check policy (.node (some (.single type)) facets properties items) v path
      | some (.union types) =>
        (tryMembers (fun type =>
          Schema.check policy (.node (some (.single type)) facets properties items) v path) path
          types).getD [] := by
  cases decl with
  | none => rw [Schema.check.eq_def]
  | some decl =>
    cases decl with
    | single type => rfl
    | union types =>
      rw [Schema.check.eq_def]
      simp only
      congr 2

/-- What is no object is no schema, and nothing is checked. -/
theorem check_ofValue_leaf {schema : Value} (hleaf : ∀ node, schema ≠ .object node) :
    Schema.check policy (Schema.ofValue schema) v path = [] := by
  have hfree : Schema.ofValue schema = .free := by
    cases schema with
    | object node => exact absurd rfl (hleaf node)
    | _ => rfl
  rw [hfree, Schema.free, Schema.check.eq_def]

theorem check_ofValue_object :
    Schema.check policy (Schema.ofValue (.object node)) v path =
      match Schema.declaration? node with
      | none => []
      | some (.single type) => Schema.check policy (Schema.ofMembersAs type node) v path
      | some (.union types) =>
        (tryMembers (fun type => Schema.check policy (Schema.ofMembersAs type node) v path) path
          types).getD [] := by
  rw [Schema.ofValue, check_node]
  rfl

theorem part_of_declared {entry : String × Value} (h : entry ∈ declared node) :
    Node.Part node entry.2 := by
  unfold declared at h
  split at h
  · case h_1 children hprops => exact .property hprops h
  · simp at h

/-- The check of an array, once its number of items is known to be right. -/
theorem checkItems_eq_nil_iff {values : List Value}
    (hbelow : ∀ child, Node.Part node child → ∀ v place,
      Schema.check policy (Schema.ofValue child) v place = [] ↔ Satisfies policy child v) :
    Schema.checkItems policy (Schema.itemsOf node) values path = [] ↔
      (∀ item, Members.find? "items" node = some item → (∀ tuple, item ≠ .array tuple) →
        ∀ v ∈ values, Satisfies policy item v) ∧
      ∀ tuple, Members.find? "items" node = some (.array tuple) →
        ∀ pair ∈ tuple.zip values, Satisfies policy pair.1 pair.2 := by
  rw [itemsOf_eq]
  cases hitems : Members.find? "items" node with
  | none => simp [Schema.checkItems]
  | some item =>
    by_cases htuple : ∃ tuple, item = .array tuple
    · obtain ⟨tuple, rfl⟩ := htuple
      simp only [Schema.checkItems]
      rw [checkTuple_eq_nil_iff fun item hmem => hbelow item (.tupleItem hitems hmem)]
      simp
    · have hitem : ∀ tuple, item ≠ .array tuple := fun tuple h => htuple ⟨tuple, h⟩
      have heach : Schema.checkItems policy (.each (Schema.ofValue item)) values path = [] ↔
          ∀ v ∈ values, Satisfies policy item v :=
        checkEach_eq_nil_iff (hbelow item (.item hitems hitem))
      cases item with
      | array tuple => exact absurd rfl (hitem tuple)
      | _ => simpa using heach

theorem satisfiesAs_array_iff {values : List Value} (path : String)
    (hbelow : ∀ child, Node.Part node child → ∀ v place,
      Schema.check policy (Schema.ofValue child) v place = [] ↔ Satisfies policy child v) :
    SatisfiesAs policy node .array (.array values) ↔
      ArrayFits node values ∧
        Schema.checkItems policy (Schema.itemsOf node) values path = [] := by
  rw [checkItems_eq_nil_iff hbelow]
  exact ⟨by rintro ⟨⟩; exact ⟨‹_›, ‹_›, ‹_›⟩, fun h => .array h.1 h.2.1 h.2.2⟩

theorem satisfiesAs_object_iff {members : Members} (path : String)
    (hbelow : ∀ child, Node.Part node child → ∀ v place,
      Schema.check policy (Schema.ofValue child) v place = [] ↔ Satisfies policy child v) :
    SatisfiesAs policy node .object (.object members) ↔
      Schema.checkProperties policy (Schema.childrenOf (declared node)) members path = [] ∧
        (AcceptsOthers policy node ∨
          ∀ key ∈ Members.keys members, key ∈ Members.keys (declared node)) := by
  rw [checkProperties_eq_nil_iff]
  constructor
  · rintro (_ | _ | _ | _ | _ | _ | _ | ⟨hpresent, hmissing, hkeys⟩)
    refine ⟨fun entry hentry => ⟨fun v hfind => ?_, hmissing entry hentry⟩, hkeys⟩
    exact (hbelow _ (part_of_declared hentry) v _).mpr (hpresent entry hentry v hfind)
  · rintro ⟨hentries, hkeys⟩
    refine .object (fun entry hentry v hfind => ?_)
      (fun entry hentry => (hentries entry hentry).2) hkeys
    exact (hbelow _ (part_of_declared hentry) v _).mp ((hentries entry hentry).1 v hfind)

theorem check_ofMembersAs_eq_nil_iff
    (hbelow : ∀ child, Node.Part node child → ∀ v place,
      Schema.check policy (Schema.ofValue child) v place = [] ↔ Satisfies policy child v) :
    Schema.check policy (Schema.ofMembersAs type node) v path = [] ↔
      SatisfiesAs policy node type v := by
  rw [Schema.ofMembersAs, Schema.check.eq_def]
  cases type with
  | any => exact iff_of_true rfl .any
  | null =>
    cases v with
    | null => exact iff_of_true rfl .null
    | _ => exact iff_of_false (by simp) (by rintro ⟨⟩)
  | boolean =>
    cases v with
    | bool b => exact iff_of_true rfl .boolean
    | _ => exact iff_of_false (by simp) (by rintro ⟨⟩)
  | number =>
    cases v with
    | number n => exact checkNumber_eq_nil_iff.trans ⟨.number, by rintro ⟨⟩; assumption⟩
    | _ => exact iff_of_false (by simp) (by rintro ⟨⟩)
  | integer =>
    cases v with
    | number n =>
      by_cases hwhole : n.isWhole = true
      · simp only [hwhole, if_true]
        exact checkNumber_eq_nil_iff.trans ⟨.integer hwhole, by rintro ⟨⟩; assumption⟩
      · exact iff_of_false (by simp [hwhole]) (by rintro ⟨⟩; contradiction)
    | _ => exact iff_of_false (by simp) (by rintro ⟨⟩)
  | string =>
    cases v with
    | string s => exact checkString_eq_nil_iff.trans ⟨.string, by rintro ⟨⟩; assumption⟩
    | _ => exact iff_of_false (by simp) (by rintro ⟨⟩)
  | array =>
    cases v with
    | array values =>
      rw [satisfiesAs_array_iff path hbelow, arrayFits_iff]
      dsimp only
      cases (Facets.ofMembers node).itemCount? values.length <;> simp
    | _ => exact iff_of_false (by simp) (by rintro ⟨⟩)
  | object =>
    cases v with
    | object members =>
      have hnames :
          (Schema.childrenOf (declared node)).map (·.1) = Members.keys (declared node) := by
        rw [childrenOf_eq_map]
        simp [Members.keys]
      rw [satisfiesAs_object_iff path hbelow, propertiesOf_eq]
      dsimp only
      rw [List.append_eq_nil_iff, hnames, checkKeys_eq_nil_iff]
    | _ => exact iff_of_false (by simp) (by rintro ⟨⟩)

/-- Whether a node is satisfied depends on its declaration, if it has one. -/
theorem satisfies_object_iff :
    Satisfies policy (.object node) v ↔
      ∀ decl, Schema.declaration? node = some decl →
        ∃ type ∈ decl.members, SatisfiesAs policy node type v := by
  constructor
  · rintro (hundeclared | ⟨⟨declared, hdeclared, hmem⟩, htype⟩) decl hdecl
    · rw [hundeclared node rfl] at hdecl
      contradiction
    · cases hdecl.symm.trans hdeclared
      exact ⟨_, hmem, htype⟩
  · intro h
    cases hdecl : Schema.declaration? node with
    | none =>
      refine .undeclared fun other hother => ?_
      cases hother
      exact hdecl
    | some decl =>
      obtain ⟨type, hmem, htype⟩ := h decl hdecl
      exact .declared ⟨decl, hdecl, hmem⟩ htype

/-- A check finds nothing exactly if the value satisfies the schema. -/
theorem check_eq_nil_iff {schema : Value} :
    Schema.check policy (Schema.ofValue schema) v path = [] ↔ Satisfies policy schema v := by
  induction schema using Node.nodeInduction generalizing v path with
  | leaf schema hleaf =>
    exact iff_of_true (check_ofValue_leaf hleaf) (.undeclared fun node h => absurd h (hleaf node))
  | node node ih =>
    have hbelow : ∀ child, Node.Part node child → ∀ v place,
        Schema.check policy (Schema.ofValue child) v place = [] ↔ Satisfies policy child v :=
      fun child hpart v place => ih child hpart
    rw [check_ofValue_object, satisfies_object_iff]
    cases hdecl : Schema.declaration? node with
    | none => simp
    | some decl =>
      cases decl with
      | single type => simp [TypeDecl.members, check_ofMembersAs_eq_nil_iff hbelow]
      | union types =>
        have htypes : types ≠ [] := (Schema.declaration?_eq_some.mp hdecl).1
        simp [TypeDecl.members, tryMembers_getD_eq_nil_iff htypes,
          check_ofMembersAs_eq_nil_iff hbelow]

end Checks

end Schemata.Validation
