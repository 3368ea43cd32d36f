import Schemata.Proofs.Building.Grammar
import Schemata.Proofs.Building.Precedence
import Schemata.Proofs.Rewriting

/-!
# Erasing null types

A tree can be rid of the null types of all its nodes.  Inheriting from a built tree commutes with
that as long as the parent declares no property that the node declares with a null type: there the
null keeps the type of the parent out.
-/

namespace Schemata

open Json (Members Value)

namespace Node

open Building (nonNull)
open Inheritance

variable {node inherited own theirs : Members} {name key : String} {v : Value}

/-- The node without its type, if that is null. -/
def withoutNull (node : Members) : Members :=
  node.filter fun entry => entry ≠ ("type", .null)

/-- The members of a tree from which the null types of all nodes are erased. -/
def erased (node : Members) : Members :=
  withoutNull (mapParts withoutNull node)

theorem mapNodes_withoutNull : mapNodes withoutNull (.object node) = .object (erased node) :=
  rfl

/-! ## One node -/

theorem uniqueKeys_withoutNull (hu : Members.UniqueKeys node) :
    Members.UniqueKeys (withoutNull node) :=
  Members.uniqueKeys_filter _ hu

theorem find?_withoutNull_eq_some (hu : Members.UniqueKeys node) :
    Members.find? key (withoutNull node) = some v ↔
      Members.find? key node = some v ∧ (key, v) ≠ ("type", .null) := by
  rw [← Members.mem_iff_find? (uniqueKeys_withoutNull hu), ← Members.mem_iff_find? hu, withoutNull,
    List.mem_filter, decide_eq_true_eq]

theorem find?_withoutNull (hu : Members.UniqueKeys node) (hkey : key ≠ "type") :
    Members.find? key (withoutNull node) = Members.find? key node := by
  ext v
  rw [find?_withoutNull_eq_some hu]
  simp [hkey]

theorem find?_type_withoutNull (hu : Members.UniqueKeys node) :
    Members.find? "type" (withoutNull node) = nonNull (Members.find? "type" node) := by
  ext v
  rw [find?_withoutNull_eq_some hu]
  cases Members.find? "type" node with
  | none => simp [nonNull]
  | some w => cases w <;> simp [nonNull] <;> rintro rfl <;> simp

theorem withoutNull_of_ne (hu : Members.UniqueKeys node)
    (h : Members.find? "type" node ≠ some .null) : withoutNull node = node := by
  unfold withoutNull
  rw [List.filter_eq_self]
  intro entry hentry
  have hne : entry ≠ ("type", .null) := by
    rintro rfl
    exact h (Members.find?_of_mem hu hentry)
  simpa using hne

theorem erased_of_ne (hu : Members.UniqueKeys node) (h : Members.find? "type" node ≠ some .null) :
    erased node = mapParts withoutNull node := by
  refine withoutNull_of_ne (uniqueKeys_mapParts hu) ?_
  rwa [find?_mapParts_of_ne (by decide) (by decide)]

/-! ## Built trees -/

theorem BuiltGrammar.part (h : BuiltGrammar (.object node)) {w : Value} (hpart : Part node w) :
    BuiltGrammar w :=
  (builtGrammar_object_iff.mp h).2 w hpart

theorem BuiltGrammar.type_ne_null (h : BuiltGrammar (.object node)) :
    Members.find? "type" node ≠ some .null := by
  obtain ⟨decl, -, htype, -⟩ := (builtGrammar_object_iff.mp h).1.declared
  rw [htype]
  simpa using decl.toValue_ne_null

theorem BuiltGrammar.shaped (h : BuiltGrammar (.object node)) : Shaped node where
  properties := by
    obtain ⟨decl, -, -, hallowed⟩ := (builtGrammar_object_iff.mp h).1.declared
    exact hallowed.properties
  entries := by
    intro name v hv
    obtain ⟨children, hprops, hfind⟩ := property?_eq_some.mp hv
    obtain ⟨child, rfl, -⟩ := h.part (.property hprops (Members.mem_of_find? hfind)) v (.root v)
    exact ⟨child, rfl⟩

/-- Nothing is erased from a built tree. -/
theorem BuiltGrammar.mapNodes (hu : v.Unique) (h : BuiltGrammar v) :
    mapNodes withoutNull v = v := by
  refine mapNodes_eq_self hu fun node hnode => ?_
  obtain ⟨found, hfound, hfinished⟩ := h _ hnode
  cases hfound
  obtain ⟨decl, -, htype, -⟩ := hfinished.declared
  refine withoutNull_of_ne (hnode.unique hu).keys ?_
  rw [htype]
  simpa using decl.toValue_ne_null

theorem BuiltGrammar.mapPart (hu : Value.Unique (.object node)) (h : BuiltGrammar (.object node))
    (hfind : Members.find? key node = some v) : mapPart withoutNull key v = v :=
  mapPart_eq_self (fun _ hpart => (h.part hpart).mapNodes (hpart.unique hu)) hfind

/-! ## Filling in -/

theorem mapParts_fill {rule : Members → Members}
    (h : ∀ entry ∈ theirs, Node.mapPart rule entry.1 entry.2 = entry.2) :
    mapParts rule (fill own theirs) = fill (mapParts rule own) theirs := by
  induction theirs generalizing own with
  | nil => rfl
  | cons entry rest ih =>
    rw [List.forall_mem_cons] at h
    rw [fill_cons, ih h.2, mapParts_addMissing, h.1, fill_cons]

/-- A filled node has a null type only if it had it before. -/
theorem type_of_fill (htheirs : BuiltGrammar (.object theirs))
    (h : Members.find? "type" (fill own theirs) = some .null) :
    Members.find? "type" own = some .null :=
  (find?_of_fill h).resolve_right htheirs.type_ne_null

/-- A merged schema has a null type only if the node's own has it. -/
theorem null_of_mergedSchema {mine inherited : Option Value} {child : Members}
    (hinherited : ∀ filling, inherited = some (.object filling) → BuiltGrammar (.object filling))
    (h : mergedSchema mine inherited = some (.object child))
    (htype : Members.find? "type" child = some .null) :
    ∃ old, mine = some (.object old) ∧ Members.find? "type" old = some .null := by
  rcases mergedSchema_eq_object h with
    ⟨-, hfilling⟩ | hold | ⟨old, filling, hold, hfilling, rfl⟩
  · exact absurd htype (hinherited child hfilling).type_ne_null
  · exact ⟨child, hold, htype⟩
  · exact ⟨old, hold, type_of_fill (hinherited filling hfilling) htype⟩

theorem erased_fill (hown : Members.UniqueKeys own) (htype : Members.find? "type" own ≠ some .null)
    (hu : Value.Unique (.object theirs)) (htheirs : BuiltGrammar (.object theirs)) :
    erased (fill own theirs) = fill (erased own) theirs := by
  have hfilled : Members.find? "type" (fill own theirs) ≠ some .null :=
    fun h => htype (type_of_fill htheirs h)
  rw [erased_of_ne (uniqueKeys_fill hown) hfilled, erased_of_ne hown htype]
  exact mapParts_fill fun entry hentry =>
    htheirs.mapPart hu (Members.find?_of_mem hu.keys hentry)

/-! ## Merging properties -/

theorem mapChildren_mergeProperty {inherited : Value}
    (hown : ∀ mine, Members.find? name own = some (.object mine) →
      Members.UniqueKeys mine ∧ Members.find? "type" mine ≠ some .null)
    (hu : inherited.Unique) (hinherited : BuiltGrammar inherited) :
    mapChildren withoutNull (mergeProperty own name inherited) =
      mergeProperty (mapChildren withoutNull own) name inherited := by
  obtain ⟨theirs, rfl, -⟩ := hinherited inherited (.root _)
  unfold mergeProperty
  rw [find?_mapChildren]
  cases hmine : Members.find? name own with
  | none =>
    rw [Option.map_none, mapChildren_eq_map, mapChildren_eq_map, List.map_append,
      List.map_singleton, hinherited.mapNodes hu]
  | some v =>
    cases v with
    | object mine =>
      obtain ⟨hkeys, htype⟩ := hown mine hmine
      rw [Option.map_some, mapNodes_withoutNull]
      dsimp only
      rw [mapChildren_set, mapNodes_withoutNull, erased_fill hkeys htype hu hinherited]
    | _ => simp [Node.mapNodes]

theorem mapChildren_mergeProperties (hown : Value.Unique (.object own))
    (hu : Value.Unique (.object theirs)) (htheirs : ∀ entry ∈ theirs, BuiltGrammar entry.2)
    (hguard : ∀ name mine, Members.find? name own = some (.object mine) →
      Members.find? "type" mine = some .null → name ∉ Members.keys theirs) :
    mapChildren withoutNull (mergeProperties own theirs) =
      mergeProperties (mapChildren withoutNull own) theirs := by
  induction theirs generalizing own with
  | nil => rfl
  | cons entry rest ih =>
    obtain ⟨name, inherited⟩ := entry
    obtain ⟨hkeys, hentries⟩ := Value.unique_object_iff.mp hu
    rw [List.forall_mem_cons] at hentries htheirs
    have hfree : ∀ mine, Members.find? name own = some (.object mine) →
        Members.find? "type" mine ≠ some .null :=
      fun mine hmine htype => hguard name mine hmine htype List.mem_cons_self
    have hrest : Value.Unique (.object rest) :=
      Value.unique_object_iff.mpr ⟨(List.nodup_cons.mp hkeys).2, hentries.2⟩
    rw [mergeProperties_cons, mergeProperties_cons,
      ← mapChildren_mergeProperty (fun mine hmine => ⟨(hown.find? hmine).keys, hfree mine hmine⟩)
        hentries.1 htheirs.1]
    refine ih (unique_mergeProperty hown hentries.1) hrest htheirs.2 ?_
    intro other mine hmine htype
    rw [find?_mergeProperty] at hmine
    by_cases hname : name = other
    · subst hname
      rw [if_pos rfl] at hmine
      have hbuilt : ∀ filling, some inherited = some (.object filling) →
          BuiltGrammar (.object filling) :=
        fun filling hfilling => Option.some.inj hfilling ▸ htheirs.1
      obtain ⟨old, hold, hnull⟩ := null_of_mergedSchema hbuilt hmine htype
      exact absurd hnull (hfree old hold)
    · rw [if_neg hname] at hmine
      exact fun hmem => hguard other mine hmine htype (List.mem_cons_of_mem _ hmem)

/-! ## Whole nodes -/

/-- The node declares the property with a null type. -/
def NullTyped (name : String) (node : Members) : Prop :=
  ∃ child, property? name node = some (.object child) ∧ Members.find? "type" child = some .null

theorem NullTyped.congr {other : Members}
    (hprops : Members.find? "properties" other = Members.find? "properties" node)
    (h : NullTyped name node) : NullTyped name other := by
  obtain ⟨child, hchild, htype⟩ := h
  exact ⟨child, (property?_congr hprops).trans hchild, htype⟩

theorem nullTyped_of_object {children child : Members}
    (hprops : Members.find? "properties" node = some (.object children))
    (hchild : Members.find? name children = some (.object child))
    (htype : Members.find? "type" child = some .null) : NullTyped name node :=
  ⟨child, (property?_of_object hprops).trans hchild, htype⟩

theorem exists_of_nullTyped (h : NullTyped name node) :
    ∃ children child, Members.find? "properties" node = some (.object children) ∧
      Members.find? name children = some (.object child) ∧
        Members.find? "type" child = some .null := by
  obtain ⟨child, hchild, htype⟩ := h
  obtain ⟨children, hprops, hfind⟩ := property?_eq_some.mp hchild
  exact ⟨children, child, hprops, hfind, htype⟩

/-- A property with a null type is never filled in. -/
theorem NullTyped.of_fill (htheirs : BuiltGrammar (.object theirs))
    (h : NullTyped name (fill own theirs)) : NullTyped name own := by
  obtain ⟨children, child, hprops, hchild, htype⟩ := exists_of_nullTyped h
  rcases find?_of_fill hprops with hmine | hfilling
  · exact nullTyped_of_object hmine hchild htype
  · have hbuilt := htheirs.part (.property hfilling (Members.mem_of_find? hchild))
    exact absurd htype hbuilt.type_ne_null

/-- A property with a null type is never inherited. -/
theorem NullTyped.of_extend (hu : Value.Unique (.object inherited))
    (hinherited : BuiltGrammar (.object inherited)) (h : NullTyped name (extend node inherited)) :
    NullTyped name node := by
  obtain ⟨child, hchild, htype⟩ := h
  rcases property?_of_extend hu hchild with htheirs | hmine | ⟨mine, filling, hmine, htheirs, heq⟩
  · exact absurd htype (hinherited.part (.of_property? htheirs)).type_ne_null
  · exact ⟨child, hmine, htype⟩
  · obtain rfl := Value.object.inj heq
    exact ⟨mine, hmine, type_of_fill (hinherited.part (.of_property? htheirs)) htype⟩

/-- The second node is the first with the null types below it erased. -/
structure Erased (node node' : Members) : Prop where
  unique : Value.Unique (.object node)
  uniqueKeys : Members.UniqueKeys node'
  find? : ∀ key, Members.find? key node' = (Members.find? key node).map (mapPart withoutNull key)

theorem Erased.find?_of_ne {node' : Members} (h : Erased node node') (hprops : key ≠ "properties")
    (hitems : key ≠ "items") : Members.find? key node' = Members.find? key node := by
  rw [h.find?, ← find?_mapParts, find?_mapParts_of_ne hprops hitems]

theorem Erased.mem_keys {node' : Members} (h : Erased node node') :
    key ∈ Members.keys node' ↔ key ∈ Members.keys node := by
  rw [← not_iff_not, ← Members.find?_eq_none_iff, ← Members.find?_eq_none_iff, h.find?,
    Option.map_eq_none_iff]

theorem erased_dropNullType (hu : Value.Unique (.object node)) :
    Erased (Building.dropNullType node) (Building.dropNullType (erased node)) where
  unique := Building.unique_dropNullType hu
  uniqueKeys :=
    Building.uniqueKeys_dropNullType (uniqueKeys_withoutNull (uniqueKeys_mapParts hu.keys))
  find? := by
    have hparts : Members.UniqueKeys (mapParts withoutNull node) := uniqueKeys_mapParts hu.keys
    have herased : Members.UniqueKeys (erased node) := uniqueKeys_withoutNull hparts
    intro key
    by_cases hkey : key = "type"
    · subst hkey
      rw [Building.find?_type_dropNullType herased, Building.find?_type_dropNullType hu.keys,
        erased, find?_type_withoutNull hparts, find?_mapParts_of_ne (by decide) (by decide)]
      cases Members.find? "type" node with
      | none => rfl
      | some v =>
        cases v <;> simp [nonNull, mapPart]
    · rw [Building.find?_dropNullType herased hkey, Building.find?_dropNullType hu.keys hkey,
        erased, find?_withoutNull hparts hkey, find?_mapParts]

theorem Erased.swapErase {node' : Members} (h : Erased node node') :
    Erased (Members.swapErase key node) (Members.swapErase key node') where
  unique := h.unique.swapErase
  uniqueKeys := Members.uniqueKeys_swapErase h.uniqueKeys
  find? := by
    intro other
    rw [Members.find?_swapErase h.unique.keys, Members.find?_swapErase h.uniqueKeys]
    split
    · rfl
    · exact h.find? other

theorem Erased.addMissing {node' : Members} {type : String} (h : Erased node node') :
    Erased (Members.addMissing node "type" (.string type))
      (Members.addMissing node' "type" (.string type)) where
  unique := h.unique.addMissing (Value.unique_of_ne_container (by simp) (by simp))
  uniqueKeys := Members.uniqueKeys_addMissing h.uniqueKeys
  find? := by
    intro key
    rw [Members.find?_addMissing, Members.find?_addMissing, h.find?, Option.map_or]
    split
    · rfl
    · rfl

/-- Erasing commutes with inheriting from a built tree that declares none of the properties with a
null type. -/
theorem Erased.extend {node' : Members} (h : Erased node node')
    (hu : Value.Unique (.object inherited)) (hinherited : BuiltGrammar (.object inherited))
    (hguard : ∀ name, NullTyped name node → property? name inherited = none) :
    Erased (extend node inherited) (extend node' inherited) where
  unique := unique_extend h.unique hu
  uniqueKeys := uniqueKeys_extend h.uniqueKeys
  find? := by
    intro key
    rw [find?_extend hu.keys, find?_extend hu.keys]
    have hkept : (Members.find? key inherited).map (Node.mapPart withoutNull key) =
        Members.find? key inherited := by
      cases hfind : Members.find? key inherited with
      | none => rfl
      | some v => rw [Option.map_some, hinherited.mapPart hu hfind]
    by_cases hkey : key = "properties"
    · subst hkey
      rw [if_pos rfl, if_pos rfl, h.find?]
      cases hmine : Members.find? "properties" node with
      | none => exact hkept.symm
      | some v =>
        cases htheirs : Members.find? "properties" inherited with
        | none => rw [mergedProperties_none, mergedProperties_none]
        | some w =>
          cases v with
          | object mine =>
            cases w with
            | object theirs =>
              have hmerged := mapChildren_mergeProperties (h.unique.find? hmine) (hu.find? htheirs)
                (fun entry hentry => hinherited.part (.property htheirs hentry))
                fun name child hchild htype => by
                  rw [← Members.find?_eq_none_iff, ← property?_of_object htheirs]
                  exact hguard name (nullTyped_of_object hmine hchild htype)
              simp [mergedProperties, Node.mapPart, hmerged]
            | _ => simp [mergedProperties, Node.mapPart]
          | _ => simp [mergedProperties, Node.mapPart]
    · rw [if_neg hkey, if_neg hkey, h.find?, Option.map_or, hkept]

end Node
end Schemata
