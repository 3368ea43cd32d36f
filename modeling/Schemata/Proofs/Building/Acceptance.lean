import Schemata.Proofs.Building.Grammar
import Schemata.Proofs.Building.Simulation
import Schemata.Proofs.Rewriting

/-!
# Building trees without references

A tree without references is built without asking for a parent, in any registry and any state.
The build accepts exactly the trees of the grammar, and changes nothing in them but absent and null
types.
-/

namespace Schemata

open Build (Ends)
open Json (Members Value Reordered)

variable {σ : Type} {s : σ}

/-! ## Computations that decide -/

/-- The computation answers if the condition holds, fails if it does not, and leaves the state as
it is. -/
def Build.Decides {α : Type} (s : σ) (p : Prop) (a : α) (b : Build σ α) : Prop :=
  (p ∧ Ends b s (.ok a) s) ∨ (¬ p ∧ ∃ e, Ends b s (.error e) s)

namespace Build

variable {α β : Type} {p q : Prop} {a : α} {c : β} {b : Build σ α} {f : α → Build σ β}

theorem Decides.pure : Decides s True a (pure a) :=
  Or.inl ⟨trivial, ends_pure.mpr ⟨rfl, rfl⟩⟩

theorem Decides.throw {e : SchemaError} (h : ¬ p) : Decides s p a (throw e) :=
  Or.inr ⟨h, e, ends_throw.mpr ⟨rfl, rfl⟩⟩

theorem Decides.ofExcept {r : Except SchemaError Unit} (h : p ↔ r = .ok ()) :
    Decides s p () (ofExcept r) := by
  cases r with
  | error e => exact .throw fun hp => by simpa using h.mp hp
  | ok _ => exact Or.inl ⟨h.mpr rfl, ends_ofExcept.mpr ⟨rfl, rfl⟩⟩

theorem Decides.bind (hb : Decides s p a b) (hf : p → Decides s q c (f a)) :
    Decides s (p ∧ q) c (b >>= f) := by
  rcases hb with ⟨hp, ha⟩ | ⟨hp, e, he⟩
  · rcases hf hp with ⟨hq, hc⟩ | ⟨hq, e, he⟩
    · exact Or.inl ⟨⟨hp, hq⟩, ends_bind.mpr (Or.inl ⟨a, s, ha, hc⟩)⟩
    · exact Or.inr ⟨fun h => hq h.2, e, ends_bind.mpr (Or.inl ⟨a, s, ha, he⟩)⟩
  · exact Or.inr ⟨fun h => hp h.1, e, ends_bind.mpr (Or.inr ⟨e, he, rfl⟩)⟩

theorem Decides.congr (h : Decides s p a b) (hiff : p ↔ q) : Decides s q a b :=
  propext hiff ▸ h

theorem Decides.finishes (h : Decides s p a b) : ∃ result, Ends b s result s := by
  rcases h with ⟨-, ha⟩ | ⟨-, e, he⟩
  · exact ⟨_, ha⟩
  · exact ⟨_, he⟩

theorem Decides.ok_iff (h : Decides s p a b) {t : σ} {found : α} :
    Ends b s (.ok found) t ↔ p ∧ found = a ∧ t = s := by
  constructor
  · intro hfound
    rcases h with ⟨hp, ha⟩ | ⟨-, e, he⟩
    · obtain ⟨hok, rfl⟩ := hfound.unique ha
      exact ⟨hp, Except.ok.inj hok, rfl⟩
    · simpa using (hfound.unique he).1
  · rintro ⟨hp, rfl, rfl⟩
    rcases h with ⟨-, ha⟩ | ⟨hnot, -⟩
    · exact ha
    · exact absurd hp hnot

end Build

/-! ## The grammar of documents -/

namespace Node

open Building (nonNull)

/-- What a node says about its type; null counts as absent, and what says nothing says `any`. -/
def declaredType (node : Members) : Value :=
  (nonNull (Members.find? "type" node)).getD (.string SchemaType.default.name)

/-- A node that the grammar admits: its type is in the vocabulary and allows its keys. -/
def Admitted (node : Members) : Prop :=
  ∃ decl : TypeDecl, decl.members ≠ [] ∧ declaredType node = decl.toValue ∧ Allowed decl node

/-- At every node position of a value stands a node that the grammar admits. -/
def InGrammar (v : Value) : Prop :=
  ∀ w, Position v w → ∃ node, w = .object node ∧ Admitted node

theorem inGrammar_object_iff {node : Members} :
    InGrammar (.object node) ↔ Admitted node ∧ ∀ part, Part node part → InGrammar part := by
  unfold InGrammar
  rw [forall_position_iff]
  simp

theorem InGrammar.object {v : Value} (h : InGrammar v) : ∃ node, v = .object node := by
  obtain ⟨node, hnode, -⟩ := h v (.root v)
  exact ⟨node, hnode⟩

end Node

namespace Building

open Node (InGrammar mapPart mapParts mapChildren mapTuple)

variable {parent : String → Build σ Members} {location : Pointer} {node : Members} {key : String}

/-! ## Types that are filled in -/

/-- The node as it is built if it has no parents: a null type is dropped, and a missing one is
`any`. -/
def typed (node : Members) : Members :=
  Members.addMissing (dropNullType node) "type" (.string SchemaType.default.name)

theorem find?_type_typed (hu : Members.UniqueKeys node) :
    Members.find? "type" (typed node) = some (Node.declaredType node) := by
  rw [typed, Members.find?_addMissing, if_pos rfl, find?_type_dropNullType hu, Node.declaredType]
  cases nonNull (Members.find? "type" node) <;> rfl

theorem find?_typed (hu : Members.UniqueKeys node) (hkey : key ≠ "type") :
    Members.find? key (typed node) = Members.find? key node := by
  rw [typed, Members.find?_addMissing, if_neg hkey.symm, Option.or_none, find?_dropNullType hu hkey]

theorem uniqueKeys_typed (hu : Members.UniqueKeys node) : Members.UniqueKeys (typed node) :=
  Members.uniqueKeys_addMissing (uniqueKeys_dropNullType hu)

theorem mem_keys_typed (hu : Members.UniqueKeys node) :
    key ∈ Members.keys (typed node) ↔ key = "type" ∨ key ∈ Members.keys node := by
  by_cases hkey : key = "type"
  · subst hkey
    simp only [true_or, iff_true]
    exact Members.mem_keys_of_find? (find?_type_typed hu)
  · rw [← not_iff_not, not_or, ← Members.find?_eq_none_iff, ← Members.find?_eq_none_iff,
      find?_typed hu hkey]
    simp [hkey]

/-- Filling in the type does not depend on what is done to the nodes below. -/
theorem typed_mapParts {rule : Members → Members} :
    typed (mapParts rule node) = mapParts rule (typed node) := by
  have hdrop : dropNullType (mapParts rule node) = mapParts rule (dropNullType node) := by
    unfold dropNullType
    rw [Node.find?_mapParts_of_ne (by decide) (by decide)]
    split
    · rw [Node.mapParts_eq_map, Node.mapParts_eq_map, Members.swapErase_map]
    · rfl
  rw [typed, typed, hdrop, Node.mapParts_addMissing, Node.mapPart_of_ne (by decide) (by decide)]

/-- The node with the type put where its null type stands, or behind all members if it has none. -/
def defaultType (node : Members) : Members :=
  match Members.find? "type" node with
  | none | some .null => Members.set "type" (.string SchemaType.default.name) node
  | some _ => node

theorem retypes_typed :
    Node.Retypes (fun found => some ((nonNull found).getD (.string SchemaType.default.name)))
      typed where
  unique := uniqueKeys_typed
  type := find?_type_typed
  other := find?_typed

theorem retypes_defaultType :
    Node.Retypes (fun found => some ((nonNull found).getD (.string SchemaType.default.name)))
      defaultType where
  unique := by
    intro node hu
    unfold defaultType
    split
    · exact Members.uniqueKeys_set hu
    · exact Members.uniqueKeys_set hu
    · exact hu
  type := by
    intro node hu
    unfold defaultType
    cases hfind : Members.find? "type" node with
    | none => simp [Members.find?_set, nonNull]
    | some v => cases v <;> simp [Members.find?_set, hfind, nonNull]
  other := by
    intro node key hu hkey
    unfold defaultType
    split
    · rw [Members.find?_set, if_neg hkey.symm]
    · rw [Members.find?_set, if_neg hkey.symm]
    · rfl

/-! ## Building a node -/

/-- A node without references is prepared without a look at any parent. -/
theorem prepare_eq (hu : Members.UniqueKeys node)
    (hextends : Members.find? "extends" node = none) :
    prepare parent location node = (do
      let decl ← Build.ofExcept (declaration location (typed node))
      Build.ofExcept (checkKeys location decl (typed node))
      return typed node) := by
  have hdropped : Members.find? "extends" (dropNullType node) = none := by
    rw [find?_dropNullType hu (by decide), hextends]
  rw [prepare, inheritParents_of_none hdropped, pure_bind]
  rfl

theorem decides_prepare (hu : Members.UniqueKeys node)
    (hextends : Members.find? "extends" node = none) :
    Build.Decides s
      (∃ decl : TypeDecl, decl.members ≠ [] ∧ Node.declaredType node = decl.toValue ∧
        ∀ key ∈ Members.keys node, decl.allows key = true)
      (typed node) (prepare parent location node) := by
  have hdeclaration : ∀ decl : TypeDecl, declaration location (typed node) = .ok decl ↔
      decl.members ≠ [] ∧ Node.declaredType node = decl.toValue := by
    intro decl
    rw [declaration_eq_ok, find?_type_typed hu, Option.some.injEq]
  rw [prepare_eq hu hextends]
  cases hdecl : declaration location (typed node) with
  | error e =>
    refine Or.inr ⟨?_, e, ?_⟩
    · rintro ⟨decl, hmembers, htype, -⟩
      rw [(hdeclaration decl).mpr ⟨hmembers, htype⟩] at hdecl
      simp at hdecl
    · exact Build.ends_bind.mpr (Or.inr ⟨e, Build.ends_ofExcept.mpr ⟨rfl, rfl⟩, rfl⟩)
  | ok decl =>
    obtain ⟨hmembers, htype⟩ := (hdeclaration decl).mp hdecl
    have hkeys : checkKeys location decl (typed node) = .ok () ↔
        ∀ key ∈ Members.keys node, decl.allows key = true := by
      rw [checkKeys_eq_ok]
      simp [mem_keys_typed hu, decl.allows_type hmembers]
    have hdecides := (Build.Decides.ofExcept (s := s) hkeys.symm).bind
      (f := fun _ => pure (typed node)) fun _ => .pure
    refine hdecides.congr ⟨fun h => ⟨decl, hmembers, htype, h.1⟩, ?_⟩
    rintro ⟨other, hother, htype', hkeys'⟩
    obtain rfl : decl = other :=
      Except.ok.inj (hdecl.symm.trans ((hdeclaration other).mpr ⟨hother, htype'⟩))
    exact ⟨hkeys', trivial⟩

/-- The members of a built node, if it has no references. -/
def settled (node : Members) : Members :=
  typed (mapParts typed node)

section Children

variable {build : Pointer → Members → Build σ Members}

theorem decides_buildChildren {children : Members}
    (hbuild : ∀ name child, (name, Value.object child) ∈ children → ∀ place,
      Build.Decides s (InGrammar (.object child)) (settled child) (build place child)) :
    Build.Decides s (∀ entry ∈ children, InGrammar entry.2) (mapChildren typed children)
      (buildChildren build location children) := by
  induction children with
  | nil => exact Build.Decides.pure.congr (by simp)
  | cons entry rest ih =>
    obtain ⟨name, v⟩ := entry
    cases v with
    | object child =>
      refine Build.Decides.congr (.bind (hbuild name child List.mem_cons_self _)
        fun _ => .bind (ih fun other child hother =>
          hbuild other child (List.mem_cons_of_mem _ hother)) fun _ => .pure) ?_
      simp
    | _ =>
      refine .throw fun h => ?_
      obtain ⟨node, hnode⟩ := (h _ List.mem_cons_self).object
      simp at hnode

theorem decides_buildTuple {tuple : List Value} {index : Nat}
    (hbuild : ∀ child, Value.object child ∈ tuple → ∀ place,
      Build.Decides s (InGrammar (.object child)) (settled child) (build place child)) :
    Build.Decides s (∀ item ∈ tuple, InGrammar item) (mapTuple typed tuple)
      (buildTuple build location index tuple) := by
  induction tuple generalizing index with
  | nil => exact Build.Decides.pure.congr (by simp)
  | cons item rest ih =>
    cases item with
    | object child =>
      refine Build.Decides.congr (.bind (hbuild child List.mem_cons_self _)
        fun _ => .bind (ih fun other hother => hbuild other (List.mem_cons_of_mem _ hother))
          fun _ => .pure) ?_
      simp
    | _ =>
      refine .throw fun h => ?_
      obtain ⟨node, hnode⟩ := (h _ List.mem_cons_self).object
      simp at hnode

/-- The node with the nodes under one key settled. -/
def settlePart (key : String) (node : Members) : Members :=
  match Members.find? key node with
  | none => node
  | some v => Members.set key (mapPart typed key v) node

theorem decides_buildProperties
    (hbuild : ∀ child, Node.Part node (.object child) → ∀ place,
      Build.Decides s (InGrammar (.object child)) (settled child) (build place child)) :
    Build.Decides s
      (∀ v, Members.find? "properties" node = some v →
        ∃ children, v = .object children ∧ ∀ entry ∈ children, InGrammar entry.2)
      (settlePart "properties" node) (buildProperties build location node) := by
  unfold buildProperties settlePart
  cases hprops : Members.find? "properties" node with
  | none => exact Build.Decides.pure.congr (by simp)
  | some v =>
    cases v with
    | object children =>
      refine Build.Decides.congr (.bind (decides_buildChildren fun name child hmem =>
        hbuild child (.property hprops hmem)) fun _ => .pure) ?_
      simp
    | _ => exact .throw (by simp)

theorem decides_buildItems
    (hbuild : ∀ child, (Members.find? "items" node = some (.object child) ∨
      ∃ tuple, Members.find? "items" node = some (.array tuple) ∧ .object child ∈ tuple) →
        ∀ place, Build.Decides s (InGrammar (.object child)) (settled child) (build place child)) :
    Build.Decides s
      (∀ v, Members.find? "items" node = some v →
        (∃ item, v = .object item ∧ InGrammar v) ∨
          ∃ tuple, v = .array tuple ∧ ∀ item ∈ tuple, InGrammar item)
      (settlePart "items" node) (buildItems build location node) := by
  unfold buildItems settlePart
  cases hitems : Members.find? "items" node with
  | none => exact Build.Decides.pure.congr (by simp)
  | some v =>
    cases v with
    | object item =>
      refine Build.Decides.congr (.bind (hbuild item (Or.inl hitems) _) fun _ => .pure) ?_
      simp
    | array tuple =>
      refine Build.Decides.congr (.bind (decides_buildTuple fun child hchild =>
        hbuild child (Or.inr ⟨tuple, hitems, hchild⟩)) fun _ => .pure) ?_
      simp
    | _ => exact .throw (by simp)

end Children

theorem keys_settlePart : Members.keys (settlePart key node) = Members.keys node := by
  unfold settlePart
  split
  · rfl
  · case h_2 v hfind =>
    exact Members.keys_set_of_has (Members.mem_keys_of_find? hfind)

theorem find?_settlePart {other : String} :
    Members.find? other (settlePart key node) =
      if key = other then (Members.find? other node).map (mapPart typed other)
      else Members.find? other node := by
  unfold settlePart
  by_cases hkey : key = other
  · subst hkey
    cases hfind : Members.find? key node with
    | none => simp [hfind]
    | some v => simp [Members.find?_set]
  · cases Members.find? key node with
    | none => simp [hkey]
    | some v => simp [Members.find?_set, hkey]

/-- Settling what is under `properties` and `items` settles all parts. -/
theorem settlePart_settlePart (hu : Members.UniqueKeys node) :
    settlePart "items" (settlePart "properties" node) = mapParts typed node := by
  have hkeys : Members.keys (settlePart "items" (settlePart "properties" node)) =
      Members.keys node := by
    rw [keys_settlePart, keys_settlePart]
  refine Members.eq_of_find? (hkeys.trans Node.keys_mapParts.symm) ?_ fun key => ?_
  · unfold Members.UniqueKeys
    rwa [hkeys]
  · rw [find?_settlePart, find?_settlePart]
    by_cases hitems : "items" = key
    · subst hitems
      rw [if_pos rfl, if_neg (by decide), Node.find?_mapParts]
    · by_cases hprops : "properties" = key
      · subst hprops
        rw [if_neg (by decide), if_pos rfl, Node.find?_mapParts]
      · rw [if_neg hitems, if_neg hprops,
          Node.find?_mapParts_of_ne (Ne.symm hprops) (Ne.symm hitems)]

/-- A tree is in the grammar if its root is admitted, as far as its own keys go, and its children
stand where they may and are in the grammar. -/
theorem inGrammar_object_iff_children :
    InGrammar (.object node) ↔
      (∃ decl : TypeDecl, decl.members ≠ [] ∧ Node.declaredType node = decl.toValue ∧
        ∀ key ∈ Members.keys node, decl.allows key = true) ∧
      (∀ v, Members.find? "properties" node = some v →
        ∃ children, v = .object children ∧ ∀ entry ∈ children, InGrammar entry.2) ∧
      ∀ v, Members.find? "items" node = some v →
        (∃ item, v = .object item ∧ InGrammar v) ∨
          ∃ tuple, v = .array tuple ∧ ∀ item ∈ tuple, InGrammar item := by
  rw [Node.inGrammar_object_iff]
  constructor
  · rintro ⟨⟨decl, hmembers, htype, hallowed⟩, hparts⟩
    refine ⟨⟨decl, hmembers, htype, hallowed.keys⟩, fun v hv => ?_, fun v hv => ?_⟩
    · obtain ⟨children, rfl⟩ := hallowed.properties v hv
      exact ⟨children, rfl, fun entry hentry => hparts _ (.property hv hentry)⟩
    · rcases hallowed.items v hv with ⟨item, rfl⟩ | ⟨tuple, rfl⟩
      · exact Or.inl ⟨item, rfl, hparts _ (.item hv (by simp))⟩
      · exact Or.inr ⟨tuple, rfl, fun item hitem => hparts _ (.tupleItem hv hitem)⟩
  · rintro ⟨⟨decl, hmembers, htype, hkeys⟩, hprops, hitems⟩
    refine ⟨⟨decl, hmembers, htype, hkeys, fun v hv => ?_, fun v hv => ?_⟩, fun part hpart => ?_⟩
    · obtain ⟨children, rfl, -⟩ := hprops v hv
      exact ⟨children, rfl⟩
    · exact (hitems v hv).imp (fun ⟨item, h, _⟩ => ⟨item, h⟩) fun ⟨tuple, h, _⟩ => ⟨tuple, h⟩
    · cases hpart with
      | property hfind hmem =>
        obtain ⟨children, heq, hall⟩ := hprops _ hfind
        rw [Value.object.injEq] at heq
        exact hall _ (heq ▸ hmem)
      | item hfind htuple =>
        rcases hitems _ hfind with ⟨-, -, hitem⟩ | ⟨tuple, heq, -⟩
        · exact hitem
        · exact absurd heq (htuple tuple)
      | tupleItem hfind hmem =>
        rcases hitems _ hfind with ⟨item, heq, -⟩ | ⟨tuple, heq, hall⟩
        · simp at heq
        · rw [Value.array.injEq] at heq
          exact hall _ (heq ▸ hmem)

/-- A tree without references is built exactly if it is in the grammar, and then into the same
tree with all types filled in. -/
theorem decides_buildNode {levels : Nat} (hu : Value.Unique (.object node))
    (hclosed : Node.NoReferences (.object node)) (hlevels : Value.nesting (.object node) ≤ levels) :
    Build.Decides s (InGrammar (.object node)) (settled node)
      (buildNode parent levels location node) := by
  induction levels generalizing location node with
  | zero => simp [Value.nesting] at hlevels
  | succ levels ih =>
    have hbuild : ∀ child, Node.Part node (.object child) → ∀ place,
        Build.Decides s (InGrammar (.object child)) (settled child)
          (buildNode parent levels place child) := by
      intro child hchild place
      have hlt := hchild.nesting_lt
      exact ih (hchild.unique hu) ((Node.noReferences_object_iff.mp hclosed).2 _ hchild) (by omega)
    have htyped : ∀ key, key ≠ "type" →
        Members.find? key (typed node) = Members.find? key node :=
      fun key hkey => find?_typed hu.keys hkey
    have hitems : Members.find? "items" (settlePart "properties" (typed node)) =
        Members.find? "items" node := by
      rw [find?_settlePart, if_neg (by decide), htyped "items" (by decide)]
    have hanswer : settlePart "items" (settlePart "properties" (typed node)) = settled node := by
      rw [settlePart_settlePart (uniqueKeys_typed hu.keys), settled, typed_mapParts]
    rw [buildNode, ← hanswer]
    refine Build.Decides.congr (.bind (decides_prepare hu.keys (hclosed node (.root _)))
      fun _ => .bind (decides_buildProperties fun child hchild => ?_)
        fun _ => decides_buildItems fun child hchild => ?_) ?_
    · exact hbuild child (hchild.congr (htyped "properties" (by decide)).symm
        (htyped "items" (by decide)).symm)
    · rw [hitems] at hchild
      rcases hchild with hitem | ⟨tuple, htuple, hmem⟩
      · exact hbuild child (.item hitem (by simp))
      · exact hbuild child (.tupleItem htuple hmem)
    · rw [htyped "properties" (by decide), hitems]
      exact inGrammar_object_iff_children.symm

end Building

end Schemata
