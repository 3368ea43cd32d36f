import Schemata.Proofs.Validation.Satisfaction

/-!
# Checks that never fall through

A check accepts everything at a node without a recognised type.  `Schema.check?` is the same walk,
but it gives up at such a node; so where it does not give up, the check has recognised the type of
every node that it came to.
-/

namespace Schemata.Validation

open Json (Members Value)

/-- Tries the members of a union in order, as `tryMembers` does, and gives up if a trial does. -/
def tryMembers? (trial : SchemaType → Option Log) (path : String) :
    List SchemaType → Option (Option Log)
  | [] => some (some [])
  | t :: rest =>
    match trial t with
    | none => none
    | some [] => some none
    | some log => (tryMembers? trial path rest).map (·.map (memberLog t path log ++ ·))

namespace Schema

mutual

/-- The violations of a value at a path, or nothing if the check comes to a node without a
recognised type. -/
def check? (policy : Policy) : Schema → Value → String → Option Log
  | node decl facets properties items, v, path =>
    let asType : SchemaType → Option Log := fun type =>
      match type, v with
      | .array, .array values =>
        match facets.itemCount? values.length with
        | some violation => some [(path, violation)]
        | none =>
          (checkItems? policy items values path).map
            (reportIf (facets.uniqueItems && Value.hasDuplicates values) path .repeatedItems ++ ·)
      | .object, .object members =>
        (checkProperties? policy properties members path).map
          (· ++ facets.checkKeys policy (properties.map (·.1)) members path)
      | type, v => some (check policy (node (some (.single type)) facets [] .free) v path)
    match decl with
    | none => none
    | some (.single type) => asType type
    | some (.union types) => (tryMembers? asType path types).map (·.getD [])

/-- Declared properties, as in `checkProperties`. -/
def checkProperties? (policy : Policy) :
    List (String × Schema) → Members → String → Option Log
  | [], _, _ => some []
  | (name, schema) :: rest, members, path =>
    match
      (match Members.find? name members with
        | some v => check? policy schema v (below path name)
        | none => some (reportIf schema.facets.required (below path name) .undefined)),
      checkProperties? policy rest members path with
    | some log, some others => some (log ++ others)
    | _, _ => none

/-- The items of an array, as in `checkItems`. -/
def checkItems? (policy : Policy) : Items Schema → List Value → String → Option Log
  | .free, _, _ => some []
  | .each schema, values, path =>
    (values.zipIdx.mapM fun (v, index) =>
      check? policy schema v (below path (Nat.repr index))).map List.flatten
  | .tuple schemas, values, path => checkTuple? policy schemas values path 0

/-- Items by position, as in `checkTuple`. -/
def checkTuple? (policy : Policy) :
    List Schema → List Value → String → Nat → Option Log
  | schema :: schemas, v :: values, path, index =>
    match check? policy schema v (below path (Nat.repr index)),
      checkTuple? policy schemas values path (index + 1) with
    | some log, some others => some (log ++ others)
    | _, _ => none
  | _, _, _, _ => some []

end

end Schema

/-! ## Where the walk does not give up -/

theorem tryMembers?_eq_some {trial? : SchemaType → Option Log} {trial : SchemaType → Log}
    {path : String} {types : List SchemaType} (h : ∀ t, trial? t = some (trial t)) :
    tryMembers? trial? path types = some (tryMembers trial path types) := by
  induction types with
  | nil => rfl
  | cons t rest ih =>
    rw [tryMembers?, tryMembers, h, ih]
    cases trial t <;> rfl

section Declared

variable {policy : Policy} {node : Members} {path : String}

/-- The walk reaches the end below a schema. -/
def WalksThrough (policy : Policy) (schema : Value) : Prop :=
  ∀ v path, Schema.check? policy (.ofValue schema) v path =
    some (Schema.check policy (.ofValue schema) v path)

theorem checkProperties?_eq_some {children members : Members}
    (h : ∀ entry ∈ children, WalksThrough policy entry.2) :
    Schema.checkProperties? policy (Schema.childrenOf children) members path =
      some (Schema.checkProperties policy (Schema.childrenOf children) members path) := by
  induction children with
  | nil => rfl
  | cons entry rest ih =>
    obtain ⟨name, child⟩ := entry
    rw [List.forall_mem_cons] at h
    rw [Schema.childrenOf, Schema.checkProperties?, Schema.checkProperties, ih h.2]
    cases Members.find? name members with
    | none => rfl
    | some v => simp only [h.1 v]

theorem checkTuple?_eq_some {tuple values : List Value} {index : Nat}
    (h : ∀ item ∈ tuple, WalksThrough policy item) :
    Schema.checkTuple? policy (Schema.tupleOf tuple) values path index =
      some (Schema.checkTuple policy (Schema.tupleOf tuple) values path index) := by
  induction tuple generalizing values index with
  | nil => simp [Schema.tupleOf, Schema.checkTuple?, Schema.checkTuple]
  | cons item rest ih =>
    rw [List.forall_mem_cons] at h
    cases values with
    | nil => simp [Schema.tupleOf, Schema.checkTuple?, Schema.checkTuple]
    | cons v values =>
      rw [Schema.tupleOf, Schema.checkTuple?, Schema.checkTuple, h.1 v, ih h.2]

theorem checkItems?_eq_some {values : List Value}
    (h : ∀ part, Node.Part node part → WalksThrough policy part) :
    Schema.checkItems? policy (Schema.itemsOf node) values path =
      some (Schema.checkItems policy (Schema.itemsOf node) values path) := by
  have heach : ∀ item, WalksThrough policy item →
      Schema.checkItems? policy (.each (.ofValue item)) values path =
        some (Schema.checkItems policy (.each (.ofValue item)) values path) := by
    intro item hitem
    have hwalk : (fun entry : Value × Nat =>
        Schema.check? policy (.ofValue item) entry.1 (below path (Nat.repr entry.2))) =
          fun entry => pure
            (Schema.check policy (.ofValue item) entry.1 (below path (Nat.repr entry.2))) :=
      funext fun entry => hitem entry.1 _
    rw [Schema.checkItems?, Schema.checkItems, hwalk, List.mapM_pure]
    rfl
  rw [itemsOf_eq]
  cases hitems : Members.find? "items" node with
  | none => rfl
  | some item =>
    cases item with
    | array tuple => exact checkTuple?_eq_some fun item hitem => h item (.tupleItem hitems hitem)
    | _ => exact heach _ (h _ (.item hitems (by simp)))

/-- The walk through a node tries the types that it declares, and gives up if there are none. -/
theorem check?_ofValue_object {v : Value} :
    Schema.check? policy (.ofValue (.object node)) v path =
      match Schema.declaration? node with
      | none => none
      | some (.single type) => Schema.check? policy (.ofMembersAs type node) v path
      | some (.union types) =>
        (tryMembers? (fun type => Schema.check? policy (.ofMembersAs type node) v path) path
          types).map (·.getD []) := by
  rw [Schema.ofValue]
  cases Schema.declaration? node with
  | none => rw [Schema.check?.eq_def]
  | some decl =>
    cases decl with
    | single type => rfl
    | union types =>
      rw [Schema.check?.eq_def]
      simp only [Schema.ofMembersAs]
      congr 2

theorem check?_ofMembersAs_eq_some {type : SchemaType} {v : Value}
    (h : ∀ part, Node.Part node part → WalksThrough policy part) :
    Schema.check? policy (.ofMembersAs type node) v path =
      some (Schema.check policy (.ofMembersAs type node) v path) := by
  rw [Schema.ofMembersAs, Schema.check?.eq_def, Schema.check.eq_def]
  cases type with
  | array =>
    cases v with
    | array values =>
      dsimp only
      rw [checkItems?_eq_some h]
      cases (Facets.ofMembers node).itemCount? values.length <;> rfl
    | _ => rfl
  | object =>
    cases v with
    | object members =>
      dsimp only
      rw [propertiesOf_eq,
        checkProperties?_eq_some fun entry hentry => h _ (part_of_declared hentry)]
      rfl
    | _ => rfl
  | _ => cases v <;> rfl

/-- If every node of a schema declares a recognised type, then no check against the schema comes
to a node without one. -/
theorem walksThrough_of_declared {schema : Value}
    (h : ∀ w, Node.Position schema w → ∃ node, w = .object node ∧
      Schema.declaration? node ≠ none) :
    WalksThrough policy schema := by
  induction schema using Node.nodeInduction with
  | leaf schema hleaf =>
    obtain ⟨node, hnode, -⟩ := h schema (.root schema)
    exact absurd hnode (hleaf node)
  | node node ih =>
    rw [Node.forall_position_iff] at h
    obtain ⟨⟨found, hfound, hdeclared⟩, hparts⟩ := h
    cases hfound
    have hbelow : ∀ part, Node.Part node part → WalksThrough policy part :=
      fun part hpart => ih part hpart (hparts part hpart)
    intro v path
    rw [check?_ofValue_object, check_ofValue_object]
    cases hdecl : Schema.declaration? node with
    | none => exact absurd hdecl hdeclared
    | some decl =>
      cases decl with
      | single type => exact check?_ofMembersAs_eq_some hbelow
      | union types =>
        dsimp only
        rw [tryMembers?_eq_some fun type => check?_ofMembersAs_eq_some hbelow]
        rfl

end Declared
end Schemata.Validation
