import Schemata.Proofs.Building.Alike
import Schemata.Proofs.Building.Precedence
import Schemata.Proofs.NullTypes

/-!
# Null types while a tree is built

A null type is dropped when the walk reaches its node, but the parents of a node are merged into
its properties before that.  So a null type counts as absent as long as no parent declares the
property that carries it; where one does, the null keeps the parent's type out, and the property
ends up with the default type.
-/

namespace Schemata
namespace Building

open Build (Alike Ends Reads)
open Json (Members Reordered Value)
open Node (BuiltGrammar Erased NullTyped Part Position erased mapChildren mapPart mapTuple
  withoutNull)

variable {σ : Type} {s : σ} {parent : String → Build σ Members} {levels : Nat}
  {location : Pointer} {node node' : Members}

/-! ## Parents -/

/-- Every parent is a built tree, and asking for it changes nothing. -/
def BuiltParents (parent : String → Build σ Members) (s : σ) : Prop :=
  ∀ reference, Reads s (fun members => Resolved members ∧ BuiltGrammar (.object members))
    (parent reference)

/-- No parent of the node declares a property that the node declares with a null type. -/
def Undisputed (parent : String → Build σ Members) (s : σ) (node : Members) : Prop :=
  ∀ reference ∈ Node.ownReferences node, ∀ members, Ends (parent reference) s (.ok members) s →
    ∀ name, NullTyped name node → Node.property? name members = none

/-- The same for every node of a value. -/
def UndisputedBelow (parent : String → Build σ Members) (s : σ) (v : Value) : Prop :=
  ∀ node, Position v (.object node) → Undisputed parent s node

theorem undisputedBelow_object_iff :
    UndisputedBelow parent s (.object node) ↔
      Undisputed parent s node ∧ ∀ part, Part node part → UndisputedBelow parent s part :=
  Node.forall_node_iff

theorem undisputedBelow_of_noReferences {v : Value} (h : Node.NoReferences v) :
    UndisputedBelow parent s v := by
  intro node hposition reference hreference
  simp [Node.ownReferences, h node hposition] at hreference

theorem Undisputed.congr {other : Members}
    (hextends : Members.find? "extends" other = Members.find? "extends" node)
    (hprops : Members.find? "properties" other = Members.find? "properties" node)
    (h : Undisputed parent s node) : Undisputed parent s other := by
  intro reference hreference members hends name hname
  rw [Node.ownReferences_congr hextends] at hreference
  exact h reference hreference members hends name (hname.congr hprops.symm)

/-- Filling a schema from a built one brings in neither references nor null types. -/
theorem undisputedBelow_fill {filling : Members} (h : UndisputedBelow parent s (.object node))
    (hfilling : BuiltGrammar (.object filling)) :
    UndisputedBelow parent s (.object (Inheritance.fill node filling)) := by
  obtain ⟨hroot, hparts⟩ := undisputedBelow_object_iff.mp h
  refine undisputedBelow_object_iff.mpr ⟨?_, fun part hpart => ?_⟩
  · intro reference hreference members hends name hname
    have hextends : Members.find? "extends" (Inheritance.fill node filling) =
        Members.find? "extends" node := by
      rw [Inheritance.find?_fill, (Node.builtGrammar_object_iff.mp hfilling).1.noReference,
        Option.or_none]
    rw [Node.ownReferences_congr hextends] at hreference
    exact hroot reference hreference members hends name (hname.of_fill hfilling)
  · rcases hpart.of_fill with hmine | htheirs
    · exact hparts part hmine
    · exact undisputedBelow_of_noReferences (hfilling.part htheirs).noReferences

/-! ## Merging -/

/-- Two nodes between two parents: the second is the first without the null types below it, and no
null type below is disputed. -/
structure Merging (parent : String → Build σ Members) (s : σ) (node node' : Members) : Prop where
  erased : Erased node node'
  parts : ∀ part, Part node part → UndisputedBelow parent s part

theorem Merging.extend {inherited : Members} (h : Merging parent s node node')
    (hu : Value.Unique (.object inherited)) (hinherited : BuiltGrammar (.object inherited))
    (hguard : ∀ name, NullTyped name node → Node.property? name inherited = none) :
    Merging parent s (extend node inherited) (extend node' inherited) where
  erased := h.erased.extend hu hinherited hguard
  parts := by
    intro part hpart
    rcases hpart.cases_extend h.erased.unique hu with
      htheirs | hmine | ⟨mine, filling, hmine, htheirs, rfl⟩
    · exact undisputedBelow_of_noReferences (hinherited.part htheirs).noReferences
    · exact h.parts part hmine
    · exact undisputedBelow_fill (h.parts _ hmine) (hinherited.part htheirs)

theorem Merging.addMissing (h : Merging parent s node node') (type : String) :
    Merging parent s (Members.addMissing node "type" (.string type))
      (Members.addMissing node' "type" (.string type)) where
  erased := h.erased.addMissing
  parts := by
    intro part hpart
    refine h.parts part (hpart.congr ?_ ?_)
    · rw [Members.find?_addMissing, if_neg (by decide), Option.or_none]
    · rw [Members.find?_addMissing, if_neg (by decide), Option.or_none]

theorem alike_inheritAll {references : List String} (hparent : BuiltParents parent s)
    (h : Merging parent s node node')
    (hguard : ∀ reference ∈ references, ∀ members, Ends (parent reference) s (.ok members) s →
      ∀ name, NullTyped name node → Node.property? name members = none) :
    Alike s (Merging parent s) (inheritAll parent references node)
      (inheritAll parent references node') := by
  induction references generalizing node node' with
  | nil => exact .pure h
  | cons reference rest ih =>
    rw [List.forall_mem_cons] at hguard
    refine (hparent reference).alike.bind fun members members' hmembers => ?_
    obtain ⟨rfl, hends, hresolved, hgrammar⟩ := hmembers
    refine ih (h.extend hresolved.unique hgrammar (hguard.1 members hends)) ?_
    intro other hother members' hends' name hname
    exact hguard.2 other hother members' hends' name
      (hname.of_extend hresolved.unique hgrammar)

theorem alike_inheritParents (hparent : BuiltParents parent s) (h : Merging parent s node node')
    (hroot : Undisputed parent s node) :
    Alike s (Merging parent s) (inheritParents parent location node)
      (inheritParents parent location node') := by
  unfold inheritParents
  rw [h.erased.find?_of_ne (by decide) (by decide)]
  cases hfind : Members.find? "extends" node with
  | none => exact .pure h
  | some v =>
    have hnames : Reads s (fun names => references location v = .ok names)
        (Build.ofExcept (references location v)) := by
      intro result t hends
      obtain ⟨rfl, rfl⟩ := Build.ends_ofExcept.mp hends
      exact ⟨rfl, fun _ => id⟩
    refine hnames.alike.bind fun names names' hsame => ?_
    obtain ⟨rfl, -, hok⟩ := hsame
    have hown : Node.ownReferences node = names := ownReferences_of_references hfind hok
    have hfinds : ∀ key, key ≠ "extends" →
        Members.find? key (Members.swapErase "extends" node) = Members.find? key node :=
      fun key hkey => by rw [Members.find?_swapErase h.erased.unique.keys, if_neg hkey.symm]
    refine alike_inheritAll hparent ⟨h.erased.swapErase, fun part hpart => ?_⟩ ?_
    · exact h.parts part (hpart.congr (hfinds "properties" (by decide)).symm
        (hfinds "items" (by decide)).symm)
    · intro reference hreference members hends name hname
      exact hroot reference (hown ▸ hreference) members hends name
        (hname.congr (hfinds "properties" (by decide)).symm)

theorem alike_prepare (hparent : BuiltParents parent s) (hu : Value.Unique (.object node))
    (h : UndisputedBelow parent s (.object node)) :
    Alike s (Merging parent s) (prepare parent location node)
      (prepare parent location (erased node)) := by
  obtain ⟨hroot, hparts⟩ := undisputedBelow_object_iff.mp h
  have hfinds : ∀ key, key ≠ "type" →
      Members.find? key (dropNullType node) = Members.find? key node :=
    fun key hkey => find?_dropNullType hu.keys hkey
  have hdropped : Merging parent s (dropNullType node) (dropNullType (erased node)) := by
    refine ⟨Node.erased_dropNullType hu, fun part hpart => hparts part (hpart.congr ?_ ?_)⟩
    · exact (hfinds "properties" (by decide)).symm
    · exact (hfinds "items" (by decide)).symm
  have hmerged : Alike s (Merging parent s) (inheritParents parent location (dropNullType node))
      (inheritParents parent location (dropNullType (erased node))) :=
    alike_inheritParents hparent hdropped
      (hroot.congr (hfinds "extends" (by decide)) (hfinds "properties" (by decide)))
  refine hmerged.bind fun merged merged' hmerging => ?_
  have htyped := hmerging.addMissing SchemaType.default.name
  have hdeclared : ∀ decl, declaration location
        (Members.addMissing merged "type" (.string SchemaType.default.name)) = .ok decl ↔
      declaration location
        (Members.addMissing merged' "type" (.string SchemaType.default.name)) = .ok decl := by
    intro decl
    rw [declaration_eq_ok, declaration_eq_ok, htyped.erased.find?_of_ne (by decide) (by decide)]
  refine (Alike.ofExcept hdeclared).bind ?_
  rintro decl - rfl
  have hallowed : ∀ u : Unit, checkKeys location decl
        (Members.addMissing merged "type" (.string SchemaType.default.name)) = .ok u ↔
      checkKeys location decl
        (Members.addMissing merged' "type" (.string SchemaType.default.name)) = .ok u := by
    rintro ⟨⟩
    simp only [checkKeys_eq_ok, htyped.erased.mem_keys]
  exact (Alike.ofExcept hallowed).bind fun _ _ _ => .pure htyped

section Children

variable {build : Pointer → Members → Build σ Members}

/-- Trees that are equal up to the order of keys. -/
def SameTree (built built' : Members) : Prop :=
  Reordered (.object built) (.object built')

theorem alike_buildChildren {children : Members}
    (hbuild : ∀ name child, (name, Value.object child) ∈ children → ∀ place,
      Alike s SameTree (build place child) (build place (erased child))) :
    Alike s (List.Forall₂ fun x y => x.1 = y.1 ∧ Reordered x.2 y.2)
      (buildChildren build location children)
      (buildChildren build location (mapChildren withoutNull children)) := by
  induction children with
  | nil => exact .pure .nil
  | cons entry rest ih =>
    obtain ⟨name, v⟩ := entry
    cases v with
    | object child =>
      refine (hbuild name child List.mem_cons_self _).bind fun built built' hbuilt => ?_
      refine (ih fun other child hchild =>
        hbuild other child (List.mem_cons_of_mem _ hchild)).bind fun others others' hothers => ?_
      exact .pure (.cons ⟨rfl, hbuilt⟩ hothers)
    | _ => exact .throw

theorem alike_buildTuple {tuple : List Value} {index : Nat}
    (hbuild : ∀ child, Value.object child ∈ tuple → ∀ place,
      Alike s SameTree (build place child) (build place (erased child))) :
    Alike s (List.Forall₂ Reordered) (buildTuple build location index tuple)
      (buildTuple build location index (mapTuple withoutNull tuple)) := by
  induction tuple generalizing index with
  | nil => exact .pure .nil
  | cons item rest ih =>
    cases item with
    | object child =>
      refine (hbuild child List.mem_cons_self _).bind fun built built' hbuilt => ?_
      refine (ih fun child hchild =>
        hbuild child (List.mem_cons_of_mem _ hchild)).bind fun others others' hothers => ?_
      exact .pure (.cons hbuilt hothers)
    | _ => exact .throw

/-- Two nodes of which the properties are built. -/
structure Halfway (node half half' : Members) : Prop where
  unique : Members.UniqueKeys half
  unique' : Members.UniqueKeys half'
  items : Members.find? "items" half = Members.find? "items" node
  items' : Members.find? "items" half' =
    (Members.find? "items" node).map (mapPart withoutNull "items")
  other : ∀ key, key ≠ "items" →
    Option.Rel Reordered (Members.find? key half) (Members.find? key half')

theorem alike_buildProperties (h : Erased node node')
    (hbuild : ∀ child, Part node (.object child) → ∀ place,
      Alike s SameTree (build place child) (build place (erased child))) :
    Alike s (Halfway node) (buildProperties build location node)
      (buildProperties build location node') := by
  have hother : ∀ key, key ≠ "properties" → key ≠ "items" →
      Option.Rel Reordered (Members.find? key node) (Members.find? key node') := by
    intro key hkey hitems
    rw [h.find?_of_ne hkey hitems]
    exact Reordered.rel_refl _
  unfold buildProperties
  rw [h.find? "properties"]
  cases hprops : Members.find? "properties" node with
  | none =>
    refine .pure ⟨h.unique.keys, h.uniqueKeys, rfl, h.find? "items", fun key hitems => ?_⟩
    by_cases hkey : key = "properties"
    · rw [hkey, h.find?, hprops]
      exact .none
    · exact hother key hkey hitems
  | some v =>
    cases v with
    | object children =>
      refine (alike_buildChildren fun name child hmem =>
        hbuild child (.property hprops hmem)).bind fun built built' hbuilt => .pure ?_
      refine ⟨?_, ?_, ?_, ?_, ?_⟩
      · exact Members.uniqueKeys_set h.unique.keys
      · exact Members.uniqueKeys_set h.uniqueKeys
      · rw [Members.find?_set, if_neg (by decide)]
      · rw [Members.find?_set, if_neg (by decide), h.find?]
      · intro key hitems
        rw [Members.find?_set, Members.find?_set]
        split
        · exact .some (.members hbuilt)
        · case isFalse hkey => exact hother key (Ne.symm hkey) hitems
    | _ => exact .throw

theorem alike_buildItems {half half' : Members} (h : Halfway node half half')
    (hbuild : ∀ child, Part node (.object child) → ∀ place,
      Alike s SameTree (build place child) (build place (erased child))) :
    Alike s SameTree (buildItems build location half) (buildItems build location half') := by
  unfold buildItems
  rw [h.items, h.items']
  cases hitems : Members.find? "items" node with
  | none =>
    refine .pure (.of_find? h.unique h.unique' fun key => ?_)
    by_cases hkey : key = "items"
    · rw [hkey, h.items, h.items', hitems]
      exact .none
    · exact h.other key hkey
  | some v =>
    have hset : ∀ {built built' : Value}, Reordered built built' →
        SameTree (Members.set "items" built half) (Members.set "items" built' half') := by
      intro built built' hbuilt
      refine .of_find? (Members.uniqueKeys_set h.unique) (Members.uniqueKeys_set h.unique')
        fun key => ?_
      rw [Members.find?_set, Members.find?_set]
      split
      · exact .some hbuilt
      · case isFalse hkey => exact h.other key (Ne.symm hkey)
    cases v with
    | object item =>
      exact (hbuild item (.item hitems (by simp)) _).bind fun _ _ hbuilt => .pure (hset hbuilt)
    | array tuple =>
      exact (alike_buildTuple fun child hmem =>
        hbuild child (.tupleItem hitems hmem)).bind fun _ _ hbuilt => .pure (hset (.items hbuilt))
    | _ => exact .throw

end Children

/-- A tree and the same without its null types build alike, as long as no parent declares a property
that the tree declares with a null type. -/
theorem alike_buildNode (hparent : BuiltParents parent s) (hu : Value.Unique (.object node))
    (h : UndisputedBelow parent s (.object node)) :
    Alike s SameTree (buildNode parent levels location node)
      (buildNode parent levels location (erased node)) := by
  induction levels generalizing location node with
  | zero => exact .unfinished (fun _ _ => Build.not_ends_unfinished) fun _ _ =>
      Build.not_ends_unfinished
  | succ levels ih =>
    refine (alike_prepare hparent hu h).bind fun prepared prepared' hmerging => ?_
    have hbuild : ∀ child, Part prepared (.object child) → ∀ place,
        Alike s SameTree (buildNode parent levels place child)
          (buildNode parent levels place (erased child)) :=
      fun child hchild place => ih (hchild.unique hmerging.erased.unique) (hmerging.parts _ hchild)
    exact (alike_buildProperties hmerging.erased hbuild).bind fun half half' hhalf =>
      alike_buildItems hhalf hbuild

/-! ## Disputed types -/

variable {name : String} {built : Members} {inherited : List Members}

theorem BuiltParents.reads (h : BuiltParents parent s) (reference : String) :
    Reads s Resolved (parent reference) :=
  fun result t hends =>
    ⟨(h reference result t hends).1, fun a ha => ((h reference result t hends).2 a ha).1⟩

theorem BuiltParents.shaped (h : BuiltParents parent s) {references : List String}
    (hanswered : Answered parent s references inherited) :
    ∀ members ∈ inherited, Resolved members ∧ Node.Shaped members := by
  intro members hmembers
  obtain ⟨reference, -, hends⟩ := exists_of_mem_right hanswered hmembers
  obtain ⟨hresolved, hgrammar⟩ := (h reference _ _ hends).2 members rfl
  exact ⟨hresolved, hgrammar.shaped⟩

/-- A null type of a property hides the types that the parents of the node declare for it: the
property has the type of its own first parent, or the default type. -/
theorem type_of_nullTyped (hparent : BuiltParents parent s) (hu : Value.Unique (.object node))
    (hnull : NullTyped name node)
    (h : Ends (buildNode parent levels location node) s (.ok built) s) :
    ∃ child inherited, Node.property? name node = some (.object child) ∧
      Answered parent s (Node.ownReferences child) inherited ∧
        Node.propertyKey? name "type" built =
          (inherited.findSome? (Members.find? "type")).or
            (some (.string SchemaType.default.name)) := by
  obtain ⟨child, hchild, htype⟩ := hnull
  cases levels with
  | zero => exact absurd h Build.not_ends_unfinished
  | succ levels =>
    obtain ⟨outer, hsuccess⟩ := buildNode_ok hu hparent.reads h
    have houter := hparent.shaped hsuccess.parents
    have hunique : Value.Unique (.object (assemble node outer)) :=
      unique_assemble hu fun members hmembers => (houter members hmembers).1.unique
    -- Merging leaves the null type and the references of the property as they are.
    have hkept : Node.propertyKey? name "type" (assemble node outer) = some .null := by
      rw [hsuccess.propertyKey?_assemble hu houter, Node.propertyKey?, hchild]
      simp [htype]
    have hextends : Node.propertyKey? name "extends" (assemble node outer) =
        Members.find? "extends" child := by
      rw [hsuccess.propertyKey?_extends hu houter, Node.propertyKey?, hchild]
    rcases hsuccess.property_cases name with
      ⟨hnone, -⟩ | ⟨merged, result, place, hmerged, hresult, hends⟩
    · simp [Node.propertyKey?, hnone] at hkept
    rw [Node.propertyKey?, hmerged] at hkept hextends
    have hmergedUnique : Value.Unique (.object merged) := by
      obtain ⟨children, hprops, hfind⟩ := Node.property?_eq_some.mp hmerged
      exact (hunique.find? hprops).find? hfind
    cases levels with
    | zero => exact absurd hends Build.not_ends_unfinished
    | succ levels =>
      obtain ⟨inherited, hinner⟩ := buildNode_ok hmergedUnique hparent.reads hends
      refine ⟨child, inherited, hchild, ?_, ?_⟩
      · rw [← Node.ownReferences_congr hextends]
        exact hinner.parents
      · have hfound := hinner.find?_type hmergedUnique (hparent.shaped hinner.parents)
        simp only at hkept
        rw [hkept, nonNull, Option.none_or] at hfound
        rw [Node.propertyKey?, hresult, ← hfound]

end Building
end Schemata
