import Schemata.Proofs.Building.Success

/-!
# Builds that complete

A computation completes under an invariant of the state if it ends from every state with the
invariant, leaves a state with it behind, and answers as required.  Other than in
`Building.Success` the parents of a node may change the state, and the trees that they answer may
have references.  A node completes if its parents and its children do: `completes_step` says what
becomes of it.
-/

namespace Schemata

open Build (Ends)
open Json (Members Value)

variable {σ : Type} {I : σ → Prop}

/-! ## Computations that complete -/

/-- From every state with the invariant the computation ends in one, and answers as required if it
answers. -/
def Build.Completes {α : Type} (I : σ → Prop) (P : α → Prop) (b : Build σ α) : Prop :=
  ∀ s, I s → ∃ result t, Ends b s result t ∧ I t ∧ ∀ a, result = .ok a → P a

namespace Build.Completes

variable {α β : Type} {P : α → Prop} {Q : β → Prop} {b : Build σ α} {f : α → Build σ β}

theorem pure {a : α} (h : P a) : Completes I P (Pure.pure a) := by
  intro s hs
  refine ⟨.ok a, s, ends_pure.mpr ⟨rfl, rfl⟩, hs, ?_⟩
  rintro b ⟨⟩
  exact h

theorem throw {e : SchemaError} : Completes I P (MonadExcept.throw e) :=
  fun s hs => ⟨.error e, s, ends_throw.mpr ⟨rfl, rfl⟩, hs, by simp⟩

theorem ofExcept {r : Except SchemaError α} (h : ∀ a, r = .ok a → P a) :
    Completes I P (Build.ofExcept r) :=
  fun s hs => ⟨r, s, ends_ofExcept.mpr ⟨rfl, rfl⟩, hs, h⟩

theorem bind (hb : Completes I P b) (hf : ∀ a, P a → Completes I Q (f a)) :
    Completes I Q (b >>= f) := by
  intro s hs
  obtain ⟨result, t, hends, ht, hok⟩ := hb s hs
  cases result with
  | ok a =>
    obtain ⟨final, u, hfinal, hu, hQ⟩ := hf a (hok a rfl) t ht
    exact ⟨final, u, ends_bind.mpr (Or.inl ⟨a, t, hends, hfinal⟩), hu, hQ⟩
  | error e => exact ⟨.error e, t, ends_bind_of_error hends, ht, by simp⟩

theorem mapError {g : SchemaError → SchemaError} (hb : Completes I P b) :
    Completes I P (Build.mapError g b) := by
  intro s hs
  obtain ⟨result, t, hends, ht, hok⟩ := hb s hs
  cases result with
  | ok a => exact ⟨.ok a, t, ends_mapError.mpr (Or.inl ⟨a, hends, rfl⟩), ht, hok⟩
  | error e => exact ⟨.error (g e), t, ends_mapError.mpr (Or.inr ⟨e, hends, rfl⟩), ht, by simp⟩

theorem get : Completes I I (MonadState.get : Build σ σ) :=
  fun s hs => ⟨.ok s, s, ends_get.mpr ⟨rfl, rfl⟩, hs, by rintro a ⟨⟩; exact hs⟩

theorem set {u : σ} (h : I u) : Completes I (fun _ => True) (MonadState.set u : Build σ PUnit) :=
  fun _ _ => ⟨.ok ⟨⟩, u, ends_set.mpr ⟨rfl, rfl⟩, h, fun _ _ => trivial⟩

theorem imp {P' : α → Prop} (hb : Completes I P b) (h : ∀ a, P a → P' a) : Completes I P' b := by
  intro s hs
  obtain ⟨result, t, hends, ht, hok⟩ := hb s hs
  exact ⟨result, t, hends, ht, fun a ha => h a (hok a ha)⟩

end Build.Completes

namespace Building

open Build (Completes)

variable {parent : String → Build σ Members} {location : Pointer} {node prepared half : Members}

/-! ## Parents -/

theorem completes_inheritAll {P : Members → Prop} {references : List String}
    (hparent : ∀ reference ∈ references, Completes I P (parent reference)) :
    Completes I (fun merged => ∃ inherited : List Members, (∀ members ∈ inherited, P members) ∧
      merged = inherited.foldl extend node) (inheritAll parent references node) := by
  induction references generalizing node with
  | nil => exact .pure ⟨[], by simp, rfl⟩
  | cons reference rest ih =>
    rw [List.forall_mem_cons] at hparent
    refine hparent.1.bind fun first hfirst => (ih hparent.2).imp fun merged hmerged => ?_
    obtain ⟨inherited, hall, rfl⟩ := hmerged
    exact ⟨first :: inherited, List.forall_mem_cons.mpr ⟨hfirst, hall⟩, rfl⟩

theorem completes_prepare {P : Members → Prop} (hu : Value.Unique (.object node))
    (hparent : ∀ reference ∈ Node.ownReferences node, Completes I P (parent reference)) :
    Completes I (fun prepared => ∃ inherited, (∀ members ∈ inherited, P members) ∧
      prepared = assemble node inherited) (prepare parent location node) := by
  have hfind : Members.find? "extends" (dropNullType node) = Members.find? "extends" node :=
    find?_dropNullType hu.keys (by decide)
  have hmerged : Completes I (fun merged => ∃ inherited : List Members,
      (∀ members ∈ inherited, P members) ∧
        merged = inherited.foldl extend (bare node))
      (inheritParents parent location (dropNullType node)) := by
    unfold inheritParents
    cases hextends : Members.find? "extends" (dropNullType node) with
    | none =>
      refine .pure ⟨[], by simp, ?_⟩
      rw [bare, Members.swapErase_of_not_mem (Members.find?_eq_none_iff.mp hextends)]
      rfl
    | some v =>
      have hnames : Completes I (fun names => references location v = .ok names)
          (Build.ofExcept (references location v)) := .ofExcept fun _ => id
      refine hnames.bind fun names hok => ?_
      rw [← ownReferences_of_references (hfind ▸ hextends) hok]
      exact completes_inheritAll hparent
  refine hmerged.bind ?_
  rintro merged ⟨inherited, hall, rfl⟩
  have hdecl : Completes I (fun _ => True) (Build.ofExcept (declaration location
      (assemble node inherited))) := .ofExcept fun _ _ => trivial
  refine hdecl.bind fun decl _ => ?_
  have hkeys : Completes I (fun _ => True) (Build.ofExcept (checkKeys location decl
      (assemble node inherited))) := .ofExcept fun _ _ => trivial
  exact hkeys.bind fun _ _ => .pure ⟨inherited, hall, rfl⟩

/-! ## Children -/

/-- What is known of a node whose children are built: they are as required, and the node refers to
what it referred to. -/
structure Walked (R : Members → Prop) (prepared built : Members) : Prop where
  unique : Value.Unique (.object built)
  references : Members.find? "extends" built = Members.find? "extends" prepared
  children : ∀ child, Node.Child built child → R child

/-- What is known of a node whose properties are built. -/
structure HalfWalked (R : Members → Prop) (prepared half : Members) : Prop where
  unique : Value.Unique (.object half)
  references : Members.find? "extends" half = Members.find? "extends" prepared
  items : Members.find? "items" half = Members.find? "items" prepared
  properties : ∀ children, Members.find? "properties" half = some (.object children) →
    ∀ name child, Members.find? name children = some (.object child) → R child

section Children

variable {R : Members → Prop}

/-- A node whose properties are built is walked once its items are. -/
theorem HalfWalked.walked_of_set (h : HalfWalked R prepared half) {v : Value} (hv : v.Unique)
    (hitem : ∀ child, v = .object child → R child)
    (htuple : ∀ tuple, v = .array tuple → ∀ child, .object child ∈ tuple → R child) :
    Walked R prepared (Members.set "items" v half) where
  unique := h.unique.set hv
  references := by rw [Members.find?_set, if_neg (by decide), h.references]
  children := by
    intro child hchild
    cases hchild with
    | property hprops hfind =>
      rw [Members.find?_set, if_neg (by decide)] at hprops
      exact h.properties _ hprops _ _ hfind
    | item hfind =>
      rw [Members.find?_set, if_pos rfl, Option.some.injEq] at hfind
      exact hitem child hfind
    | tupleItem hfind hmem =>
      rw [Members.find?_set, if_pos rfl, Option.some.injEq] at hfind
      exact htuple _ hfind child hmem

theorem HalfWalked.walked_of_none (h : HalfWalked R prepared half)
    (hnone : Members.find? "items" half = none) : Walked R prepared half where
  unique := h.unique
  references := h.references
  children := by
    intro child hchild
    cases hchild with
    | property hprops hfind => exact h.properties _ hprops _ _ hfind
    | item hfind => simp [hnone] at hfind
    | tupleItem hfind _ => simp [hnone] at hfind

variable (hR : ∀ child, R child → Value.Unique (.object child))
  {build : Pointer → Members → Build σ Members}

theorem completes_buildChildren {children : Members}
    (hbuild : ∀ name child, (name, Value.object child) ∈ children →
      ∀ place, Completes I R (build place child)) :
    Completes I (fun built => Members.keys built = Members.keys children ∧
        ∀ entry ∈ built, ∃ child, entry.2 = .object child ∧ R child)
      (buildChildren build location children) := by
  induction children with
  | nil => exact .pure ⟨rfl, by simp⟩
  | cons entry rest ih =>
    obtain ⟨name, v⟩ := entry
    cases v with
    | object child =>
      refine (hbuild name child List.mem_cons_self _).bind fun built hbuilt => ?_
      refine (ih fun other child hother =>
        hbuild other child (List.mem_cons_of_mem _ hother)).bind fun others hothers => ?_
      refine .pure ⟨congrArg (name :: ·) hothers.1, List.forall_mem_cons.mpr ⟨?_, hothers.2⟩⟩
      exact ⟨built, rfl, hbuilt⟩
    | _ => exact .throw

theorem completes_buildTuple {tuple : List Value} {index : Nat}
    (hbuild : ∀ child, Value.object child ∈ tuple →
      ∀ place, Completes I R (build place child)) :
    Completes I (fun built => ∀ item ∈ built, ∃ child, item = .object child ∧ R child)
      (buildTuple build location index tuple) := by
  induction tuple generalizing index with
  | nil => exact .pure (by simp)
  | cons item rest ih =>
    cases item with
    | object child =>
      refine (hbuild child List.mem_cons_self _).bind fun built hbuilt => ?_
      refine (ih fun other hother =>
        hbuild other (List.mem_cons_of_mem _ hother)).bind fun others hothers => ?_
      exact .pure (List.forall_mem_cons.mpr ⟨⟨built, rfl, hbuilt⟩, hothers⟩)
    | _ => exact .throw

include hR

theorem completes_buildProperties (hu : Value.Unique (.object prepared))
    (hbuild : ∀ child, Node.Child prepared child →
      ∀ place, Completes I R (build place child)) :
    Completes I (HalfWalked R prepared) (buildProperties build location prepared) := by
  unfold buildProperties
  cases hprops : Members.find? "properties" prepared with
  | none => exact .pure ⟨hu, rfl, rfl, by simp [hprops]⟩
  | some v =>
    cases v with
    | object children =>
      have hkeys : Members.UniqueKeys children := (hu.find? hprops).keys
      refine (completes_buildChildren fun name child hmem => hbuild child
        (.property hprops (Members.find?_of_mem hkeys hmem))).bind fun built hbuilt => .pure ?_
      refine ⟨hu.set (Value.unique_object_iff.mpr ⟨?_, ?_⟩), ?_, ?_, ?_⟩
      · unfold Members.UniqueKeys
        rw [hbuilt.1]
        exact hkeys
      · intro entry hentry
        obtain ⟨child, hobject, hchild⟩ := hbuilt.2 entry hentry
        exact hobject ▸ hR child hchild
      · rw [Members.find?_set, if_neg (by decide)]
      · rw [Members.find?_set, if_neg (by decide)]
      · intro found hfound name child hchild
        rw [Members.find?_set, if_pos rfl, Option.some.injEq, Value.object.injEq] at hfound
        subst hfound
        obtain ⟨result, hobject, hresult⟩ := hbuilt.2 _ (Members.mem_of_find? hchild)
        rw [Value.object.injEq] at hobject
        exact hobject ▸ hresult
    | _ => exact .throw

theorem completes_buildItems (hhalf : HalfWalked R prepared half)
    (hbuild : ∀ child, Node.Child prepared child →
      ∀ place, Completes I R (build place child)) :
    Completes I (Walked R prepared) (buildItems build location half) := by
  unfold buildItems
  have hsame := hhalf.items
  cases hitems : Members.find? "items" half with
  | none => exact .pure (hhalf.walked_of_none hitems)
  | some v =>
    rw [hitems] at hsame
    cases v with
    | object child =>
      refine (hbuild child (.item hsame.symm) _).bind fun built hbuilt => .pure ?_
      refine hhalf.walked_of_set (hR built hbuilt) ?_ (by simp)
      rintro child ⟨⟩
      exact hbuilt
    | array tuple =>
      refine (completes_buildTuple fun child hchild =>
        hbuild child (.tupleItem hsame.symm hchild)).bind fun built hbuilt => .pure ?_
      refine hhalf.walked_of_set (Value.unique_array_iff.mpr fun item hitem => ?_) (by simp) ?_
      · obtain ⟨child, rfl, hchild⟩ := hbuilt item hitem
        exact hR child hchild
      · rintro tuple ⟨⟩ child hchild
        obtain ⟨found, hobject, hfound⟩ := hbuilt _ hchild
        rw [Value.object.injEq] at hobject
        exact hobject ▸ hfound
    | _ => exact .throw

/-- A node is built if its parents complete and its children are built. -/
theorem completes_step {P : Members → Prop} {levels : Nat} (hu : Value.Unique (.object node))
    (hparent : ∀ reference ∈ Node.ownReferences node, Completes I P (parent reference))
    (hunique : ∀ members, P members → Value.Unique (.object members))
    (hbuild : ∀ inherited : List Members, (∀ members ∈ inherited, P members) →
      ∀ child, Node.Child (assemble node inherited) child →
        ∀ place, Completes I R (buildNode parent levels place child)) :
    Completes I (fun built => ∃ inherited : List Members, (∀ members ∈ inherited, P members) ∧
      Walked R (assemble node inherited) built) (buildNode parent (levels + 1) location node) := by
  refine (completes_prepare hu hparent).bind ?_
  rintro prepared ⟨inherited, hall, rfl⟩
  have hprepared : Value.Unique (.object (assemble node inherited)) :=
    unique_assemble hu fun members hmembers => hunique members (hall members hmembers)
  refine (completes_buildProperties hR hprepared (hbuild inherited hall)).bind fun half hhalf => ?_
  exact (completes_buildItems hR hhalf (hbuild inherited hall)).imp fun built hbuilt =>
    ⟨inherited, hall, hbuilt⟩

end Children

end Building
end Schemata
