import Mathlib.Data.List.Forall2
import Schemata.Proofs.Building.Grammar
import Schemata.Proofs.Building.Outcome

/-!
# What a build did that succeeded

A build that ends with a tree has asked for every parent that the node names, has merged the
answers in order, and has built every child of the merged node.  Since children survive the
merging with all their references, every parent that the tree mentions has been answered.
-/

namespace Schemata
namespace Building

open Build (Ends Reads)
open Json (Members Value)

variable {σ : Type} {s t : σ} {parent : String → Build σ Members} {location : Pointer}
  {node : Members}

theorem exists_of_mem_right {α β : Type} {R : α → β → Prop} {as : List α} {bs : List β}
    (h : List.Forall₂ R as bs) {b : β} (hb : b ∈ bs) : ∃ a ∈ as, R a b := by
  induction h with
  | nil => simp at hb
  | cons hab _ ih =>
    rcases List.mem_cons.mp hb with rfl | hrest
    · exact ⟨_, List.mem_cons_self, hab⟩
    · obtain ⟨a, ha, hR⟩ := ih hrest
      exact ⟨a, List.mem_cons_of_mem _ ha, hR⟩

theorem exists_of_mem_left {α β : Type} {R : α → β → Prop} {as : List α} {bs : List β}
    (h : List.Forall₂ R as bs) {a : α} (ha : a ∈ as) : ∃ b ∈ bs, R a b :=
  exists_of_mem_right h.flip ha

/-! ## Merging the parents -/

/-- What a node declares itself, apart from its parents. -/
def bare (node : Members) : Members :=
  Members.swapErase "extends" (dropNullType node)

/-- The node with the trees of its parents merged into it, and with a type. -/
def assemble (node : Members) (inherited : List Members) : Members :=
  Members.addMissing (inherited.foldl extend (bare node)) "type"
    (.string SchemaType.default.name)

theorem find?_bare (hu : Value.Unique (.object node)) {key : String} (htype : key ≠ "type")
    (hextends : key ≠ "extends") : Members.find? key (bare node) = Members.find? key node := by
  rw [bare, Members.find?_swapErase (unique_dropNullType hu).keys, if_neg hextends.symm,
    find?_dropNullType hu.keys htype]

theorem find?_type_bare (hu : Value.Unique (.object node)) :
    Members.find? "type" (bare node) = nonNull (Members.find? "type" node) := by
  rw [bare, Members.find?_swapErase (unique_dropNullType hu).keys, if_neg (by decide),
    find?_type_dropNullType hu.keys]

theorem find?_assemble {inherited : List Members} {key : String} (htype : key ≠ "type") :
    Members.find? key (assemble node inherited) =
      Members.find? key (inherited.foldl extend (bare node)) := by
  rw [assemble, Members.find?_addMissing, if_neg htype.symm, Option.or_none]

/-- The parents that the references name are answered with these trees. -/
def Answered (parent : String → Build σ Members) (s : σ) :
    List String → List Members → Prop :=
  List.Forall₂ fun reference inherited => Ends (parent reference) s (.ok inherited) s

theorem inheritAll_ok (hparent : ∀ reference, Reads s Resolved (parent reference))
    {references : List String} {merged : Members}
    (h : Ends (inheritAll parent references node) s (.ok merged) t) :
    t = s ∧ ∃ inherited, Answered parent s references inherited ∧
      merged = inherited.foldl extend node := by
  induction references generalizing node with
  | nil =>
    obtain ⟨hmerged, rfl⟩ := Build.ends_pure_ok.mp h
    exact ⟨rfl, [], .nil, hmerged⟩
  | cons reference rest ih =>
    obtain ⟨first, u, hfirst, hrest⟩ := Build.ends_bind_ok.mp h
    obtain rfl := (hparent reference _ _ hfirst).1
    obtain ⟨rfl, inherited, hanswered, hmerged⟩ := ih hrest
    exact ⟨rfl, first :: inherited, .cons hfirst hanswered, hmerged⟩

theorem inheritParents_ok (hparent : ∀ reference, Reads s Resolved (parent reference))
    {merged : Members} (h : Ends (inheritParents parent location node) s (.ok merged) t) :
    t = s ∧ ∃ inherited, Answered parent s (Node.ownReferences node) inherited ∧
      merged = inherited.foldl extend (Members.swapErase "extends" node) := by
  unfold inheritParents at h
  cases hfind : Members.find? "extends" node with
  | none =>
    rw [hfind] at h
    obtain ⟨hmerged, rfl⟩ := Build.ends_pure_ok.mp h
    refine ⟨rfl, [], ?_, ?_⟩
    · rw [Node.ownReferences, hfind]
      exact .nil
    · rw [Members.swapErase_of_not_mem (Members.find?_eq_none_iff.mp hfind)]
      exact hmerged
  | some v =>
    rw [hfind] at h
    obtain ⟨names, u, hnames, hrest⟩ := Build.ends_bind_ok.mp h
    obtain ⟨hreferences, rfl⟩ := Build.ends_ofExcept.mp hnames
    rw [ownReferences_of_references hfind hreferences.symm]
    exact inheritAll_ok hparent hrest

theorem prepare_ok (hu : Value.Unique (.object node))
    (hparent : ∀ reference, Reads s Resolved (parent reference))
    {prepared : Members} (h : Ends (prepare parent location node) s (.ok prepared) t) :
    t = s ∧ ∃ inherited, Answered parent s (Node.ownReferences node) inherited ∧
      prepared = assemble node inherited ∧
        ∃ decl : TypeDecl, decl.members ≠ [] ∧
          Members.find? "type" prepared = some decl.toValue ∧
            ∀ key ∈ Members.keys prepared, decl.allows key = true := by
  obtain ⟨merged, u, hmerged, hrest⟩ := Build.ends_bind_ok.mp h
  obtain ⟨decl, v, hdecl, hrest'⟩ := Build.ends_bind_ok.mp hrest
  obtain ⟨hdeclared, rfl⟩ := Build.ends_ofExcept.mp hdecl
  obtain ⟨_, w, hkeys, hpure⟩ := Build.ends_bind_ok.mp hrest'
  obtain ⟨hallowed, rfl⟩ := Build.ends_ofExcept.mp hkeys
  obtain ⟨hprepared, rfl⟩ := Build.ends_pure_ok.mp hpure
  obtain ⟨rfl, inherited, hanswered, rfl⟩ := inheritParents_ok hparent hmerged
  have hreferences : Node.ownReferences (dropNullType node) = Node.ownReferences node :=
    Node.ownReferences_congr (find?_dropNullType hu.keys (by decide))
  rw [hreferences] at hanswered
  obtain ⟨hmembers, htype⟩ := declaration_eq_ok.mp hdeclared.symm
  exact ⟨rfl, inherited, hanswered, hprepared, decl, hmembers, hprepared ▸ htype,
    hprepared ▸ checkKeys_eq_ok.mp hallowed.symm⟩

/-- A node is prepared if its parents can be had and its declaration and keys are in order. -/
theorem ends_prepare_of_merged {merged typed : Members} {decl : TypeDecl}
    (hmerged : Ends (inheritParents parent location (dropNullType node)) s (.ok merged) t)
    (htyped : Members.addMissing merged "type" (.string SchemaType.default.name) = typed)
    (hdecl : declaration location typed = .ok decl)
    (hkeys : checkKeys location decl typed = .ok ()) :
    Ends (prepare parent location node) s (.ok typed) t := by
  subst htyped
  refine Build.ends_bind_ok.mpr ⟨merged, t, hmerged, ?_⟩
  refine Build.ends_bind_ok.mpr ⟨decl, t, Build.ends_ofExcept.mpr ⟨hdecl.symm, rfl⟩, ?_⟩
  refine Build.ends_bind_ok.mpr ⟨(), t, Build.ends_ofExcept.mpr ⟨hkeys.symm, rfl⟩, ?_⟩
  exact Build.ends_pure.mpr ⟨rfl, rfl⟩

theorem unique_foldl_extend {inherited : List Members} (hnode : Value.Unique (.object node))
    (hinherited : ∀ members ∈ inherited, Value.Unique (.object members)) :
    Value.Unique (.object (inherited.foldl extend node)) := by
  apply List.foldlRecOn (motive := fun merged : Members => Value.Unique (.object merged)) _ _ hnode
  intro merged hmerged members hmem
  exact Inheritance.unique_extend hmerged (hinherited members hmem)

theorem unique_assemble {inherited : List Members} (hnode : Value.Unique (.object node))
    (hinherited : ∀ members ∈ inherited, Value.Unique (.object members)) :
    Value.Unique (.object (assemble node inherited)) := by
  refine (unique_foldl_extend ?_ hinherited).addMissing
    (Value.unique_of_ne_container (by simp) (by simp))
  exact (unique_dropNullType hnode).swapErase

theorem prepared_foldl_extend {document : Members} {inherited : List Members}
    (h : Prepared document node) (hinherited : ∀ members ∈ inherited, Resolved members) :
    Prepared document (inherited.foldl extend node) := by
  apply List.foldlRecOn inherited _ h
  intro merged hmerged members hmem
  exact hmerged.extend (hinherited members hmem)

/-- The merged node makes no reference itself, and only references of the node below. -/
theorem prepared_assemble {inherited : List Members} (hu : Value.Unique (.object node))
    (hinherited : ∀ members ∈ inherited, Resolved members) :
    Prepared node (assemble node inherited) :=
  .of_dropNullType hu
    (prepared_foldl_extend (prepared_swapErase (unique_dropNullType hu)) hinherited).addMissing

/-- A child stays a child, and keeps its references, while parents are merged. -/
theorem child_foldl_extend {inherited : List Members} {child : Members}
    (hinherited : ∀ members ∈ inherited, Value.Unique (.object members))
    (hchild : Node.Child node child) :
    ∃ merged, Node.Child (inherited.foldl extend node) merged ∧
      ∀ reference, Node.Mentions child reference → Node.Mentions merged reference := by
  induction inherited generalizing node child with
  | nil => exact ⟨child, hchild, fun _ => id⟩
  | cons first rest ih =>
    rw [List.forall_mem_cons] at hinherited
    obtain ⟨merged, hmerged, hkept⟩ := hchild.extend hinherited.1
    obtain ⟨final, hfinal, hkept'⟩ := ih hinherited.2 hmerged
    exact ⟨final, hfinal, fun reference h => hkept' reference (hkept reference h)⟩

theorem child_assemble {inherited : List Members} {child : Members}
    (hnode : Value.Unique (.object node))
    (hinherited : ∀ members ∈ inherited, Value.Unique (.object members))
    (hchild : Node.Child node child) :
    ∃ merged, Node.Child (assemble node inherited) merged ∧
      ∀ reference, Node.Mentions child reference → Node.Mentions merged reference := by
  have hbare : Node.Child (bare node) child :=
    (Node.child_congr (find?_bare hnode (by decide) (by decide))
      (find?_bare hnode (by decide) (by decide))).mpr hchild
  obtain ⟨merged, hmerged, hkept⟩ := child_foldl_extend hinherited hbare
  exact ⟨merged, (Node.child_congr (find?_assemble (by decide))
    (find?_assemble (by decide))).mpr hmerged, hkept⟩

/-! ## Building the children -/

/-- A schema before and after it is built. -/
def SchemaBuilt (build : Pointer → Members → Build σ Members) (s : σ) (v result : Value) : Prop :=
  ∃ child built place, v = .object child ∧ result = .object built ∧
    Ends (build place child) s (.ok built) s

/-- An entry under `properties` before and after it is built. -/
def EntryBuilt (build : Pointer → Members → Build σ Members) (s : σ)
    (entry result : String × Value) : Prop :=
  entry.1 = result.1 ∧ SchemaBuilt build s entry.2 result.2

section Children

variable {build : Pointer → Members → Build σ Members}

theorem buildChildren_ok {children built : Members}
    (hbuild : ∀ name child, (name, Value.object child) ∈ children →
      ∀ place, Reads s Resolved (build place child))
    (h : Ends (buildChildren build location children) s (.ok built) t) :
    t = s ∧ List.Forall₂ (EntryBuilt build s) children built := by
  induction children generalizing built t with
  | nil =>
    obtain ⟨rfl, rfl⟩ := Build.ends_pure_ok.mp h
    exact ⟨rfl, .nil⟩
  | cons entry rest ih =>
    obtain ⟨name, v⟩ := entry
    cases v with
    | object child =>
      obtain ⟨result, u, hresult, hrest⟩ := Build.ends_bind_ok.mp h
      obtain rfl := (hbuild name child List.mem_cons_self _ _ _ hresult).1
      obtain ⟨others, hothers, rfl⟩ := Build.ends_bind_pure_ok.mp hrest
      obtain ⟨hstate, hrest⟩ := ih (fun other child hother =>
        hbuild other child (List.mem_cons_of_mem _ hother)) hothers
      exact ⟨hstate, .cons ⟨rfl, child, result, _, rfl, rfl, hresult⟩ hrest⟩
    | _ => simp [buildChildren] at h

theorem buildTuple_ok {tuple built : List Value} {index : Nat}
    (hbuild : ∀ child, Value.object child ∈ tuple →
      ∀ place, Reads s Resolved (build place child))
    (h : Ends (buildTuple build location index tuple) s (.ok built) t) :
    t = s ∧ List.Forall₂ (SchemaBuilt build s) tuple built := by
  induction tuple generalizing index built t with
  | nil =>
    obtain ⟨rfl, rfl⟩ := Build.ends_pure_ok.mp h
    exact ⟨rfl, .nil⟩
  | cons item rest ih =>
    cases item with
    | object child =>
      obtain ⟨result, u, hresult, hrest⟩ := Build.ends_bind_ok.mp h
      obtain rfl := (hbuild child List.mem_cons_self _ _ _ hresult).1
      obtain ⟨others, hothers, rfl⟩ := Build.ends_bind_pure_ok.mp hrest
      obtain ⟨hstate, hrest⟩ := ih (fun child hchild =>
        hbuild child (List.mem_cons_of_mem _ hchild)) hothers
      exact ⟨hstate, .cons ⟨child, result, _, rfl, rfl, hresult⟩ hrest⟩
    | _ => simp [buildTuple] at h

end Children

/-- The tree under `properties` holds the built children. -/
structure PropertiesBuilt (build : Pointer → Members → Build σ Members) (s : σ)
    (node half : Members) : Prop where
  other : ∀ key, key ≠ "properties" → Members.find? key half = Members.find? key node
  absent : Members.find? "properties" node = none → Members.find? "properties" half = none
  present : ∀ v, Members.find? "properties" node = some v →
    ∃ children results, v = .object children ∧
      Members.find? "properties" half = some (.object results) ∧
        List.Forall₂ (EntryBuilt build s) children results

/-- Under `items` stands the built schema of all items, or the list of the built ones. -/
structure ItemsBuilt (build : Pointer → Members → Build σ Members) (s : σ)
    (node built : Members) : Prop where
  other : ∀ key, key ≠ "items" → Members.find? key built = Members.find? key node
  absent : Members.find? "items" node = none → Members.find? "items" built = none
  present : ∀ v, Members.find? "items" node = some v →
    (∃ result, Members.find? "items" built = some result ∧ SchemaBuilt build s v result) ∨
      ∃ tuple results, v = .array tuple ∧ Members.find? "items" built = some (.array results) ∧
        List.Forall₂ (SchemaBuilt build s) tuple results

section Parts

variable {build : Pointer → Members → Build σ Members}

theorem buildProperties_ok {half : Members} (hu : Value.Unique (.object node))
    (hbuild : ∀ child, Node.Child node child → ∀ place, Reads s Resolved (build place child))
    (h : Ends (buildProperties build location node) s (.ok half) t) :
    t = s ∧ PropertiesBuilt build s node half := by
  unfold buildProperties at h
  cases hprops : Members.find? "properties" node with
  | none =>
    rw [hprops] at h
    obtain ⟨rfl, rfl⟩ := Build.ends_pure_ok.mp h
    exact ⟨rfl, fun _ _ => rfl, id, by simp [hprops]⟩
  | some v =>
    rw [hprops] at h
    cases v with
    | object children =>
      obtain ⟨results, hresults, rfl⟩ := Build.ends_bind_pure_ok.mp h
      obtain ⟨rfl, hall⟩ := buildChildren_ok (fun name child hmem => hbuild child
        (.property hprops (Members.find?_of_mem (hu.find? hprops).keys hmem))) hresults
      refine ⟨rfl, fun key hkey => ?_, by simp [hprops], ?_⟩
      · rw [Members.find?_set, if_neg hkey.symm]
      · intro v hv
        rw [hprops, Option.some.injEq] at hv
        exact ⟨children, results, hv.symm, by rw [Members.find?_set, if_pos rfl], hall⟩
    | _ => simp at h

theorem buildItems_ok {built : Members}
    (hbuild : ∀ child, (Members.find? "items" node = some (.object child) ∨
      ∃ tuple, Members.find? "items" node = some (.array tuple) ∧ .object child ∈ tuple) →
        ∀ place, Reads s Resolved (build place child))
    (h : Ends (buildItems build location node) s (.ok built) t) :
    ItemsBuilt build s node built := by
  unfold buildItems at h
  cases hitems : Members.find? "items" node with
  | none =>
    rw [hitems] at h
    obtain ⟨rfl, -⟩ := Build.ends_pure_ok.mp h
    exact ⟨fun _ _ => rfl, id, by simp [hitems]⟩
  | some v =>
    rw [hitems] at h
    cases v with
    | object item =>
      obtain ⟨result, hresult, rfl⟩ := Build.ends_bind_pure_ok.mp h
      obtain rfl := (hbuild _ (Or.inl hitems) _ _ _ hresult).1
      refine ⟨fun key hkey => by rw [Members.find?_set, if_neg hkey.symm], by simp [hitems], ?_⟩
      intro v hv
      rw [hitems, Option.some.injEq] at hv
      exact Or.inl ⟨.object result, by rw [Members.find?_set, if_pos rfl],
        item, result, _, hv.symm, rfl, hresult⟩
    | array tuple =>
      obtain ⟨results, hresults, rfl⟩ := Build.ends_bind_pure_ok.mp h
      obtain ⟨-, hall⟩ := buildTuple_ok
        (fun child hchild => hbuild child (Or.inr ⟨tuple, hitems, hchild⟩)) hresults
      refine ⟨fun key hkey => by rw [Members.find?_set, if_neg hkey.symm], by simp [hitems], ?_⟩
      intro v hv
      rw [hitems, Option.some.injEq] at hv
      exact Or.inr ⟨tuple, results, hv.symm, by rw [Members.find?_set, if_pos rfl], hall⟩
    | _ => simp at h

end Parts

/-- What a build did that turned a node into a tree. -/
structure Success (parent : String → Build σ Members) (levels : Nat) (s : σ) (node : Members)
    (inherited : List Members) (built : Members) : Prop where
  parents : Answered parent s (Node.ownReferences node) inherited
  declared : ∃ decl : TypeDecl, decl.members ≠ [] ∧
    Members.find? "type" (assemble node inherited) = some decl.toValue ∧
      ∀ key ∈ Members.keys (assemble node inherited), decl.allows key = true
  properties : ∃ half, PropertiesBuilt (buildNode parent levels) s (assemble node inherited) half ∧
    ItemsBuilt (buildNode parent levels) s half built

theorem reads_buildNode {levels : Nat} (hu : Value.Unique (.object node))
    (hparent : ∀ reference, Reads s Resolved (parent reference)) :
    Reads s Resolved (buildNode parent levels location node) := by
  have hnode : (Simulation.outcome s fun _ => True).Relates Resolved
      (buildNode parent levels location node) fun _ => buildNode parent levels location node := by
    refine Simulation.buildNode _ (Nat.le_refl levels) hu fun reference _ result t h => ?_
    obtain ⟨hstate, hok⟩ := hparent reference result t h
    exact ⟨hstate, hok, fun _ _ => Or.inr trivial⟩
  intro result t h
  obtain ⟨hstate, hok, -⟩ := hnode result t h
  exact ⟨hstate, hok⟩

theorem Answered.resolved {references : List String} {inherited : List Members}
    (hparent : ∀ reference, Reads s Resolved (parent reference))
    (h : Answered parent s references inherited) : ∀ members ∈ inherited, Resolved members := by
  intro members hmembers
  obtain ⟨reference, -, hends⟩ := exists_of_mem_right h hmembers
  exact (hparent reference _ _ hends).2 members rfl

/-- A build that ends with a tree was a success in all its parts. -/
theorem buildNode_ok {levels : Nat} {built : Members} (hu : Value.Unique (.object node))
    (hparent : ∀ reference, Reads s Resolved (parent reference))
    (h : Ends (buildNode parent (levels + 1) location node) s (.ok built) t) :
    ∃ inherited, Success parent levels s node inherited built := by
  obtain ⟨prepared, u, hprepare, hrest⟩ := Build.ends_bind_ok.mp h
  obtain ⟨hprepared, inherited, hanswered, rfl, hdeclared⟩ := prepare_ok hu hparent hprepare
  obtain ⟨half, v, hhalf, hitems⟩ := Build.ends_bind_ok.mp hrest
  rw [hprepared] at hhalf
  have hunique : Value.Unique (.object (assemble node inherited)) :=
    unique_assemble hu fun members hmembers => (hanswered.resolved hparent members hmembers).unique
  have hbuild : ∀ child, Node.Child (assemble node inherited) child →
      ∀ place, Reads s Resolved (buildNode parent levels place child) :=
    fun child hchild place => reads_buildNode (hchild.unique hunique) hparent
  obtain ⟨hstate, hproperties⟩ := buildProperties_ok hunique hbuild hhalf
  rw [hstate] at hitems
  have hitem : ∀ child, (Members.find? "items" half = some (.object child) ∨
      ∃ tuple, Members.find? "items" half = some (.array tuple) ∧ .object child ∈ tuple) →
        Node.Child (assemble node inherited) child := by
    rw [hproperties.other "items" (by decide)]
    rintro child (hchild | ⟨tuple, htuple, hmem⟩)
    · exact .item hchild
    · exact .tupleItem htuple hmem
  exact ⟨inherited, hanswered, hdeclared, half, hproperties,
    buildItems_ok (fun child hchild => hbuild child (hitem child hchild)) hitems⟩

/-- Every child of the merged node has been built. -/
theorem Success.children {levels : Nat} {inherited : List Members} {built child : Members}
    (h : Success parent levels s node inherited built)
    (hchild : Node.Child (assemble node inherited) child) :
    ∃ place result, Ends (buildNode parent levels place child) s (.ok result) s := by
  have hitem : ∀ {item result : Value}, item = .object child →
      SchemaBuilt (buildNode parent levels) s item result →
        ∃ place result, Ends (buildNode parent levels place child) s (.ok result) s := by
    rintro item result hitem ⟨found, built, place, hfound, -, hends⟩
    rw [hitem, Value.object.injEq] at hfound
    exact ⟨place, built, hfound ▸ hends⟩
  obtain ⟨half, hproperties, hitems⟩ := h.properties
  have hsame := hproperties.other "items" (by decide)
  cases hchild with
  | property hprops hfind =>
    obtain ⟨children, results, hobject, -, hall⟩ := hproperties.present _ hprops
    rw [Value.object.injEq] at hobject
    subst hobject
    obtain ⟨result, -, -, hbuilt⟩ := exists_of_mem_left hall (Members.mem_of_find? hfind)
    exact hitem rfl hbuilt
  | item hfind =>
    rcases hitems.present _ (hsame.trans hfind) with ⟨result, -, hbuilt⟩ | ⟨tuple, -, heq, -⟩
    · exact hitem rfl hbuilt
    · simp at heq
  | tupleItem hfind hmem =>
    rcases hitems.present _ (hsame.trans hfind) with ⟨result, -, hbuilt⟩ |
      ⟨tuple, results, heq, -, hall⟩
    · obtain ⟨found, -, -, hfound, -⟩ := hbuilt
      simp at hfound
    · rw [Value.array.injEq] at heq
      subst heq
      obtain ⟨result, -, hbuilt⟩ := exists_of_mem_left hall hmem
      exact hitem rfl hbuilt

/-- Every parent that a built tree mentions has been answered. -/
theorem exists_answer_of_ok {levels : Nat} {built : Members} (hu : Value.Unique (.object node))
    (hparent : ∀ reference, Reads s Resolved (parent reference))
    (h : Ends (buildNode parent levels location node) s (.ok built) t) {reference : String}
    (hmentions : Node.Mentions node reference) :
    ∃ members, Ends (parent reference) s (.ok members) s := by
  induction levels generalizing location node built t with
  | zero => exact absurd h Build.not_ends_unfinished
  | succ levels ih =>
    obtain ⟨inherited, hsuccess⟩ := buildNode_ok hu hparent h
    have hinherited : ∀ members ∈ inherited, Value.Unique (.object members) :=
      fun members hmembers => (hsuccess.parents.resolved hparent members hmembers).unique
    rcases Node.mentions_iff.mp hmentions with hown | ⟨child, hchild, hbelow⟩
    · obtain ⟨members, -, hends⟩ := exists_of_mem_left hsuccess.parents hown
      exact ⟨members, hends⟩
    · obtain ⟨merged, hmerged, hkept⟩ := child_assemble hu hinherited hchild
      obtain ⟨place, result, hends⟩ := hsuccess.children hmerged
      exact ih (hmerged.unique (unique_assemble hu hinherited)) hends (hkept reference hbelow)

end Building
end Schemata
