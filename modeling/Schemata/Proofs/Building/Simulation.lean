import Schemata.Proofs.Build
import Schemata.Proofs.Node

/-!
# Comparing two builds of one tree

A tree may be built with different levels, from different parents, in different states, with and
without a cache.  All these comparisons follow one pattern: a relation between computations that
is kept by answering, by blaming the node, and by going on.  A `Simulation` is such a relation,
and `Simulation.buildNode` says that two builds of one tree are related as soon as the parents
are that the tree mentions.

On the right stands a family of computations, so that a finished build may also be compared with
the builds that have enough levels.
-/

namespace Schemata

open Json (Members Value)

/-- An error that blames the node under construction, and no parent of it. -/
def SchemaError.BlamesNode : SchemaError → Prop
  | .invalidType _ _ => True
  | .invalidProperty _ _ _ => True
  | _ => False

theorem SchemaError.BlamesNode.sources_eq_nil {e : SchemaError} (h : e.BlamesNode) :
    e.sources = [] := by
  cases e with
  | brokenExtend reference source => exact h.elim
  | _ => rfl

/-- A tree without references, in which every object holds each key once. -/
structure Resolved (node : Members) : Prop where
  unique : Value.Unique (.object node)
  closed : Node.Closed node

/-- A relation between computations and families of computations that holds of equal answers and
of equal blame, and is kept by going on.  The left one may be unfinished.  The relation also says
which answers are possible. -/
structure Simulation (σ τ ι : Type) where
  Relates {α : Type} : (α → Prop) → Build σ α → (ι → Build τ α) → Prop
  answer {α : Type} {P : α → Prop} {a : α} : P a → Relates P (pure a) fun _ => pure a
  blame {α : Type} {P : α → Prop} {e : SchemaError} :
    e.BlamesNode → Relates P (throw e) fun _ => throw e
  unfinished {α : Type} {P : α → Prop} {y : ι → Build τ α} : Relates P Build.unfinished y
  andThen {α β : Type} {P : α → Prop} {Q : β → Prop} {x : Build σ α} {y : ι → Build τ α}
    {f : α → Build σ β} {g : ι → α → Build τ β} :
    Relates P x y → (∀ a, P a → Relates Q (f a) fun i => g i a) →
      Relates Q (x >>= f) fun i => y i >>= g i

namespace Building

theorem blamesNode_of_referenceList {location : Pointer} {items : List Value} {e : SchemaError}
    (h : referenceList location items = .error e) : e.BlamesNode := by
  induction items with
  | nil => simp [referenceList] at h
  | cons v rest ih =>
    cases v with
    | string s =>
      cases hrest : referenceList location rest with
      | ok names => simp [referenceList, hrest, Except.map] at h
      | error e' =>
        simp only [referenceList, hrest, Except.map, Except.error.injEq] at h
        exact ih (h ▸ hrest)
    | _ =>
      simp only [referenceList, Except.error.injEq] at h
      exact h ▸ trivial

theorem blamesNode_of_references {location : Pointer} {v : Value} {e : SchemaError}
    (h : references location v = .error e) : e.BlamesNode := by
  cases v with
  | string s => simp [references] at h
  | array items => exact blamesNode_of_referenceList h
  | _ =>
    simp only [references, Except.error.injEq] at h
    exact h ▸ trivial

theorem blamesNode_of_declaration {location : Pointer} {node : Members} {e : SchemaError}
    (h : declaration location node = .error e) : e.BlamesNode := by
  unfold declaration at h
  split at h
  · simp at h
  · simp only [Except.error.injEq] at h
    exact h ▸ trivial

theorem blamesNode_of_checkKeys {location : Pointer} {decl : TypeDecl} {node : Members}
    {e : SchemaError} (h : checkKeys location decl node = .error e) : e.BlamesNode := by
  induction node with
  | nil => simp [checkKeys] at h
  | cons entry rest ih =>
    rw [checkKeys] at h
    split at h
    · exact ih h
    · simp only [Except.error.injEq] at h
      exact h ▸ trivial

theorem filterMap_of_referenceList {location : Pointer} {items : List Value} {names : List String}
    (h : referenceList location items = .ok names) :
    items.filterMap Value.string? = names := by
  induction items generalizing names with
  | nil =>
    simp only [referenceList, Except.ok.injEq] at h
    exact h
  | cons v rest ih =>
    cases v with
    | string s =>
      cases hrest : referenceList location rest with
      | error e => simp [referenceList, hrest, Except.map] at h
      | ok more =>
        simp only [referenceList, hrest, Except.map, Except.ok.injEq] at h
        rw [← h, List.filterMap_cons_some (by rfl : Value.string? (.string s) = some s), ih hrest]
    | _ => simp [referenceList] at h

/-- The references of a node are the strings under its `extends`. -/
theorem ownReferences_of_references {location : Pointer} {node : Members} {v : Value}
    {names : List String} (hfind : Members.find? "extends" node = some v)
    (h : references location v = .ok names) :
    Node.ownReferences node = names := by
  unfold Node.ownReferences
  rw [hfind]
  cases v with
  | string s =>
    simp only [references, Except.ok.injEq] at h
    exact h
  | array items => exact filterMap_of_referenceList h
  | _ => simp [references] at h

/-- A declared type, where null counts as none. -/
def nonNull : Option Value → Option Value
  | some .null => none
  | declared => declared

theorem find?_type_dropNullType {node : Members} (hu : Members.UniqueKeys node) :
    Members.find? "type" (dropNullType node) = nonNull (Members.find? "type" node) := by
  unfold dropNullType
  split
  · case h_1 hnull =>
    rw [Members.find?_swapErase hu, if_pos rfl, hnull]
    rfl
  · case h_2 hne =>
    cases hfind : Members.find? "type" node with
    | none => rfl
    | some v =>
      cases v with
      | null => exact absurd hfind hne
      | _ => rfl

theorem find?_dropNullType {node : Members} {key : String} (hu : Members.UniqueKeys node)
    (hkey : key ≠ "type") :
    Members.find? key (dropNullType node) = Members.find? key node := by
  unfold dropNullType
  split
  · rw [Members.find?_swapErase hu, if_neg hkey.symm]
  · rfl

theorem uniqueKeys_dropNullType {node : Members} (hu : Members.UniqueKeys node) :
    Members.UniqueKeys (dropNullType node) := by
  unfold dropNullType
  split
  · exact Members.uniqueKeys_swapErase hu
  · exact hu

theorem unique_dropNullType {node : Members} (hu : Value.Unique (.object node)) :
    Value.Unique (.object (dropNullType node)) := by
  unfold dropNullType
  split
  · exact hu.swapErase
  · exact hu

theorem dropNullType_of_find? {node : Members} {v : Value}
    (hfind : Members.find? "type" node = some v) (hv : v ≠ .null) : dropNullType node = node := by
  unfold dropNullType
  split
  · case h_1 hnull => exact absurd (Option.some.inj (hfind.symm.trans hnull)) hv
  · rfl

section Parents

variable {σ : Type} {parent : String → Build σ Members} {location : Pointer} {node : Members}

theorem inheritParents_of_none (hextends : Members.find? "extends" node = none) :
    inheritParents parent location node = pure node := by
  unfold inheritParents
  rw [hextends]

theorem inheritParents_of_reference {reference : String}
    (hextends : Members.find? "extends" node = some (.string reference)) :
    inheritParents parent location node = (do
      let inherited ← parent reference
      return extend (Members.swapErase "extends" node) inherited) := by
  unfold inheritParents
  rw [hextends]
  rfl

end Parents

/-- What is known of a node once its parents are merged into it: it makes no reference itself, and
all references below it come from the document. -/
structure Prepared (document node : Members) : Prop where
  unique : Value.Unique (.object node)
  noReference : Members.find? "extends" node = none
  mentions : ∀ child, Node.Child node child →
    ∀ reference, Node.Mentions child reference → Node.Mentions document reference

/-- What is known of a node once its properties are built. -/
structure HalfBuilt (prepared node : Members) : Prop where
  unique : Value.Unique (.object node)
  noReference : Members.find? "extends" node = none
  items : Members.find? "items" node = Members.find? "items" prepared
  properties : ∀ children, Members.find? "properties" node = some (.object children) →
    ∀ name child, Members.find? name children = some (.object child) → Resolved child

theorem Prepared.extend {document node inherited : Members} (h : Prepared document node)
    (hinherited : Resolved inherited) : Prepared document (extend node inherited) where
  unique := Inheritance.unique_extend h.unique hinherited.unique
  noReference := by
    rw [Inheritance.find?_extend hinherited.unique.keys, if_neg (by decide), h.noReference,
      (Node.closed_iff.mp hinherited.closed).1]
    rfl
  mentions := by
    intro child hchild reference hmentions
    rcases hchild.of_extend hinherited.unique hinherited.closed with hclosed | ⟨old, hold, hsub⟩
    · exact absurd hmentions hclosed.not_mentions
    · exact h.mentions old hold reference (hsub reference hmentions)

theorem Prepared.addMissing {document node : Members} {name : String} (h : Prepared document node) :
    Prepared document (Members.addMissing node "type" (.string name)) where
  unique := h.unique.addMissing (Value.unique_of_ne_container (by simp) (by simp))
  noReference := by
    rw [Members.find?_addMissing, h.noReference]
    rfl
  mentions := by
    intro child hchild
    refine h.mentions child ((Node.child_congr ?_ ?_).mp hchild)
    · rw [Members.find?_addMissing, if_neg (by decide), Option.or_none]
    · rw [Members.find?_addMissing, if_neg (by decide), Option.or_none]

/-- The tree without its own references. -/
theorem prepared_swapErase {node : Members} (hu : Value.Unique (.object node)) :
    Prepared node (Members.swapErase "extends" node) where
  unique := hu.swapErase
  noReference := by rw [Members.find?_swapErase hu.keys, if_pos rfl]
  mentions := by
    intro child hchild reference hmentions
    refine hmentions.of_child ((Node.child_congr ?_ ?_).mp hchild)
    · rw [Members.find?_swapErase hu.keys, if_neg (by decide)]
    · rw [Members.find?_swapErase hu.keys, if_neg (by decide)]

theorem Prepared.of_dropNullType {node prepared : Members} (hu : Value.Unique (.object node))
    (h : Prepared (dropNullType node) prepared) : Prepared node prepared where
  unique := h.unique
  noReference := h.noReference
  mentions := by
    intro child hchild reference hmentions
    have hfind : ∀ key, key ≠ "type" →
        Members.find? key (dropNullType node) = Members.find? key node :=
      fun key hkey => find?_dropNullType hu.keys hkey
    obtain hown | ⟨below, hbelow, hmentions⟩ :=
      Node.mentions_iff.mp (h.mentions child hchild reference hmentions)
    · rw [Node.ownReferences_congr (hfind "extends" (by decide))] at hown
      exact Node.mentions_of_own hown
    · exact hmentions.of_child ((Node.child_congr (hfind "properties" (by decide))
        (hfind "items" (by decide))).mp hbelow)

/-- Built children in the place of the declared ones. -/
theorem Prepared.halfBuilt {document prepared children built : Members}
    (h : Prepared document prepared) (hu : Members.UniqueKeys children)
    (hkeys : Members.keys built = Members.keys children)
    (hbuilt : ∀ entry ∈ built, ∃ child, entry.2 = .object child ∧ Resolved child) :
    HalfBuilt prepared (Members.set "properties" (.object built) prepared) where
  unique := by
    refine h.unique.set (Value.unique_object_iff.mpr ⟨?_, ?_⟩)
    · unfold Members.UniqueKeys
      rw [hkeys]
      exact hu
    · intro entry hentry
      obtain ⟨child, hobject, hchild⟩ := hbuilt entry hentry
      exact hobject ▸ hchild.unique
  noReference := by rw [Members.find?_set, if_neg (by decide), h.noReference]
  items := by rw [Members.find?_set, if_neg (by decide)]
  properties := by
    intro children hchildren name child hchild
    rw [Members.find?_set, if_pos rfl, Option.some.injEq, Value.object.injEq] at hchildren
    subst hchildren
    obtain ⟨built, hobject, hbuilt⟩ := hbuilt _ (Members.mem_of_find? hchild)
    rw [Value.object.injEq] at hobject
    exact hobject ▸ hbuilt

section HalfBuilt

variable {prepared node : Members}

/-- A half-built node is resolved once its items are. -/
theorem HalfBuilt.resolved (h : HalfBuilt prepared node)
    (hitem : ∀ child, Members.find? "items" node = some (.object child) → Resolved child)
    (htuple : ∀ tuple, Members.find? "items" node = some (.array tuple) →
      ∀ child, .object child ∈ tuple → Resolved child) :
    Resolved node where
  unique := h.unique
  closed := by
    refine Node.closed_iff.mpr ⟨h.noReference, fun child hchild => ?_⟩
    cases hchild with
    | property hprops hfind => exact (h.properties _ hprops _ _ hfind).closed
    | item hfind => exact (hitem child hfind).closed
    | tupleItem hfind hmem => exact (htuple _ hfind child hmem).closed

theorem HalfBuilt.resolved_of_none (h : HalfBuilt prepared node)
    (hnone : Members.find? "items" node = none) : Resolved node := by
  refine h.resolved ?_ ?_
  · simp [hnone]
  · simp [hnone]

theorem HalfBuilt.set_items {v : Value} (h : HalfBuilt prepared node) (hv : Value.Unique v) :
    HalfBuilt (Members.set "items" v node) (Members.set "items" v node) where
  unique := h.unique.set hv
  noReference := by rw [Members.find?_set, if_neg (by decide), h.noReference]
  items := rfl
  properties := by
    intro children hchildren
    rw [Members.find?_set, if_neg (by decide)] at hchildren
    exact h.properties children hchildren

theorem HalfBuilt.resolved_of_item {built : Members} (h : HalfBuilt prepared node)
    (hbuilt : Resolved built) :
    Resolved (Members.set "items" (.object built) node) := by
  refine (h.set_items hbuilt.unique).resolved ?_ ?_
  · intro child hchild
    rw [Members.find?_set, if_pos rfl, Option.some.injEq, Value.object.injEq] at hchild
    exact hchild ▸ hbuilt
  · simp [Members.find?_set]

theorem HalfBuilt.resolved_of_tuple {built : List Value} (h : HalfBuilt prepared node)
    (hbuilt : ∀ item ∈ built, ∃ child, item = .object child ∧ Resolved child) :
    Resolved (Members.set "items" (.array built) node) := by
  have hunique : Value.Unique (.array built) := by
    rw [Value.unique_array_iff]
    intro item hitem
    obtain ⟨child, rfl, hchild⟩ := hbuilt item hitem
    exact hchild.unique
  refine (h.set_items hunique).resolved ?_ ?_
  · simp [Members.find?_set]
  · intro tuple htuple child hchild
    rw [Members.find?_set, if_pos rfl, Option.some.injEq, Value.array.injEq] at htuple
    obtain ⟨resolved, hobject, hresolved⟩ := hbuilt _ (htuple ▸ hchild)
    rw [Value.object.injEq] at hobject
    exact hobject ▸ hresolved

end HalfBuilt

end Building

namespace Simulation

open Building

variable {σ τ ι : Type} (S : Simulation σ τ ι)

theorem ofExcept {α : Type} {P : α → Prop} {r : Except SchemaError α}
    (hok : ∀ a, r = .ok a → P a) (herror : ∀ e, r = .error e → e.BlamesNode) :
    S.Relates P (Build.ofExcept r) fun _ => Build.ofExcept r := by
  cases r with
  | ok a => exact S.answer (hok a rfl)
  | error e => exact S.blame (herror e rfl)

variable {parent₁ : String → Build σ Members} {parent₂ : ι → String → Build τ Members}
  {location : Pointer} {node document : Members}

theorem inheritAll {references : List String}
    (hparent : ∀ reference ∈ references,
      S.Relates Resolved (parent₁ reference) fun i => parent₂ i reference)
    (hnode : Prepared document node) :
    S.Relates (Prepared document) (Building.inheritAll parent₁ references node)
      fun i => Building.inheritAll (parent₂ i) references node := by
  induction references generalizing node with
  | nil => exact S.answer hnode
  | cons reference rest ih =>
    refine S.andThen (hparent reference List.mem_cons_self) fun inherited hinherited => ?_
    exact ih (fun other hother => hparent other (List.mem_cons_of_mem _ hother))
      (hnode.extend hinherited)

theorem inheritParents (hu : Value.Unique (.object node))
    (hparent : ∀ reference ∈ Node.ownReferences node,
      S.Relates Resolved (parent₁ reference) fun i => parent₂ i reference) :
    S.Relates (Prepared node) (Building.inheritParents parent₁ location node)
      fun i => Building.inheritParents (parent₂ i) location node := by
  unfold Building.inheritParents
  cases hfind : Members.find? "extends" node with
  | none =>
    refine S.answer ⟨hu, hfind, ?_⟩
    exact fun child hchild reference hmentions => hmentions.of_child hchild
  | some v =>
    have hnames : S.Relates (fun names => references location v = .ok names)
        (Build.ofExcept (references location v))
        fun _ => Build.ofExcept (references location v) :=
      S.ofExcept (fun _ => id) fun _ => blamesNode_of_references
    refine S.andThen hnames fun names hok => ?_
    rw [ownReferences_of_references hfind hok] at hparent
    exact S.inheritAll hparent (prepared_swapErase hu)

theorem prepare (hu : Value.Unique (.object node))
    (hparent : ∀ reference ∈ Node.ownReferences node,
      S.Relates Resolved (parent₁ reference) fun i => parent₂ i reference) :
    S.Relates (Prepared node) (Building.prepare parent₁ location node)
      fun i => Building.prepare (parent₂ i) location node := by
  have hdropped : S.Relates (Prepared (dropNullType node))
      (Building.inheritParents parent₁ location (dropNullType node))
      fun i => Building.inheritParents (parent₂ i) location (dropNullType node) := by
    refine S.inheritParents (unique_dropNullType hu) ?_
    rwa [Node.ownReferences_congr (find?_dropNullType hu.keys (by decide))]
  refine S.andThen hdropped fun merged hmerged => ?_
  refine S.andThen (S.ofExcept (fun _ _ => trivial) fun _ => blamesNode_of_declaration)
    fun decl (_ : True) => ?_
  refine S.andThen (S.ofExcept (fun _ _ => trivial) fun _ => blamesNode_of_checkKeys)
    fun _ (_ : True) => ?_
  exact S.answer (Prepared.of_dropNullType hu hmerged.addMissing)

variable {build₁ : Pointer → Members → Build σ Members}
  {build₂ : ι → Pointer → Members → Build τ Members}

theorem buildChildren {children : Members}
    (hbuild : ∀ name child, (name, Value.object child) ∈ children → ∀ place,
      S.Relates Resolved (build₁ place child) fun i => build₂ i place child) :
    S.Relates (fun built => Members.keys built = Members.keys children ∧
        ∀ entry ∈ built, ∃ child, entry.2 = .object child ∧ Resolved child)
      (Building.buildChildren build₁ location children)
      fun i => Building.buildChildren (build₂ i) location children := by
  induction children with
  | nil => exact S.answer ⟨rfl, by simp⟩
  | cons entry rest ih =>
    obtain ⟨name, v⟩ := entry
    cases v with
    | object child =>
      refine S.andThen (hbuild name child List.mem_cons_self _) fun built hbuilt => ?_
      refine S.andThen (ih fun other child hother =>
        hbuild other child (List.mem_cons_of_mem _ hother)) fun others hothers => ?_
      refine S.answer ⟨congrArg (name :: ·) hothers.1, ?_⟩
      intro entry hentry
      rcases List.mem_cons.mp hentry with rfl | hold
      · exact ⟨built, rfl, hbuilt⟩
      · exact hothers.2 entry hold
    | _ => exact S.blame trivial

theorem buildTuple {tuple : List Value} {index : Nat}
    (hbuild : ∀ child, Value.object child ∈ tuple → ∀ place,
      S.Relates Resolved (build₁ place child) fun i => build₂ i place child) :
    S.Relates (fun built => ∀ item ∈ built, ∃ child, item = .object child ∧ Resolved child)
      (Building.buildTuple build₁ location index tuple)
      fun i => Building.buildTuple (build₂ i) location index tuple := by
  induction tuple generalizing index with
  | nil => exact S.answer (by simp)
  | cons item rest ih =>
    cases item with
    | object child =>
      refine S.andThen (hbuild child List.mem_cons_self _) fun built hbuilt => ?_
      refine S.andThen (ih fun other hother => hbuild other (List.mem_cons_of_mem _ hother))
        fun others hothers => ?_
      refine S.answer fun item hitem => ?_
      rcases List.mem_cons.mp hitem with rfl | hold
      · exact ⟨built, rfl, hbuilt⟩
      · exact hothers item hold
    | _ => exact S.blame trivial

theorem buildProperties {prepared : Members} (hprepared : Prepared document prepared)
    (hbuild : ∀ child, Node.Child prepared child → ∀ place,
      S.Relates Resolved (build₁ place child) fun i => build₂ i place child) :
    S.Relates (HalfBuilt prepared) (Building.buildProperties build₁ location prepared)
      fun i => Building.buildProperties (build₂ i) location prepared := by
  unfold Building.buildProperties
  cases hprops : Members.find? "properties" prepared with
  | none =>
    refine S.answer ⟨hprepared.unique, hprepared.noReference, rfl, ?_⟩
    intro children hchildren
    simp [hprops] at hchildren
  | some v =>
    cases v with
    | object children =>
      have hu : Members.UniqueKeys children := (hprepared.unique.find? hprops).keys
      refine S.andThen (S.buildChildren fun name child hmem => hbuild child
        (.property hprops (Members.find?_of_mem hu hmem))) fun built hbuilt => ?_
      exact S.answer (hprepared.halfBuilt hu hbuilt.1 hbuilt.2)
    | _ => exact S.blame trivial

theorem buildItems {prepared : Members} (hnode : HalfBuilt prepared node)
    (hbuild : ∀ child, Node.Child prepared child → ∀ place,
      S.Relates Resolved (build₁ place child) fun i => build₂ i place child) :
    S.Relates Resolved (Building.buildItems build₁ location node)
      fun i => Building.buildItems (build₂ i) location node := by
  unfold Building.buildItems
  have hsame := hnode.items
  cases hitems : Members.find? "items" node with
  | none => exact S.answer (hnode.resolved_of_none hitems)
  | some v =>
    rw [hitems] at hsame
    cases v with
    | object child =>
      refine S.andThen (hbuild child (.item hsame.symm) _) fun built hbuilt => ?_
      exact S.answer (hnode.resolved_of_item hbuilt)
    | array tuple =>
      refine S.andThen (S.buildTuple fun child hchild =>
        hbuild child (.tupleItem hsame.symm hchild)) fun built hbuilt => ?_
      exact S.answer (hnode.resolved_of_tuple hbuilt)
    | _ => exact S.blame trivial

/-- Two builds of one tree are related if the parents are that the tree mentions, and the right
build has at least as many levels. -/
theorem buildNode {levels levels' : Nat} (hlevels : levels ≤ levels')
    (hu : Value.Unique (.object node))
    (hparent : ∀ reference, Node.Mentions node reference →
      S.Relates Resolved (parent₁ reference) fun i => parent₂ i reference) :
    S.Relates Resolved (Building.buildNode parent₁ levels location node)
      fun i => Building.buildNode (parent₂ i) levels' location node := by
  induction levels generalizing levels' location node with
  | zero => exact S.unfinished
  | succ levels ih =>
    obtain ⟨more, rfl⟩ : ∃ more, levels' = more + 1 := ⟨levels' - 1, by omega⟩
    refine S.andThen (S.prepare hu fun reference hown =>
      hparent reference (Node.mentions_of_own hown)) fun prepared hprepared => ?_
    have hbuild : ∀ child, Node.Child prepared child → ∀ place,
        S.Relates Resolved (Building.buildNode parent₁ levels place child)
          fun i => Building.buildNode (parent₂ i) more place child := by
      intro child hchild place
      exact ih (by omega) (hchild.unique hprepared.unique) fun reference hmentions =>
        hparent reference (hprepared.mentions child hchild reference hmentions)
    refine S.andThen (S.buildProperties hprepared hbuild) fun node hnode => ?_
    exact S.buildItems hnode hbuild

end Simulation
end Schemata
