import Schemata.Proofs.Building.Acceptance
import Schemata.Proofs.Route

/-!
# Where the grammar is broken

The errors that a tree without references can give are those of its own nodes.  Each carries the
location of the route to what is at fault: to a node, for its type and its keys, or to a value that
stands where a child node must and is none.  `Build.Errs` says of a computation which errors it may
end with, whatever the state; there is one law for each way to put computations together, and one
lemma for each step of a build.
-/

namespace Schemata

open Build (Ends)
open Json (Members Value)

variable {σ : Type}

/-! ## Errors of computations -/

/-- In whatever state it is started, the computation ends with no errors but these. -/
def Build.Errs {α : Type} (P : SchemaError → Prop) (b : Build σ α) : Prop :=
  ∀ s e t, Ends b s (.error e) t → P e

namespace Build

variable {α β : Type} {P : SchemaError → Prop} {b : Build σ α} {f : α → Build σ β}

theorem Errs.pure {a : α} : Errs (σ := σ) P (pure a) := by
  intro s e t h
  simpa using (ends_pure.mp h).1

theorem Errs.throw {e : SchemaError} (h : P e) : Errs P (throw e : Build σ α) := by
  intro s e' t he
  rw [ends_throw, Except.error.injEq] at he
  exact he.1 ▸ h

theorem Errs.unfinished : Errs P (unfinished : Build σ α) :=
  fun _ _ _ h => absurd h not_ends_unfinished

theorem Errs.ofExcept {r : Except SchemaError α} (h : ∀ e, r = .error e → P e) :
    Errs (σ := σ) P (ofExcept r) :=
  fun _ e _ he => h e (ends_ofExcept.mp he).1.symm

theorem Errs.bind (hb : Errs P b) (hf : ∀ s a t, Ends b s (.ok a) t → Errs P (f a)) :
    Errs P (b >>= f) := by
  intro s e t h
  rcases ends_bind.mp h with ⟨a, u, ha, hrest⟩ | ⟨e', he, heq⟩
  · exact hf s a u ha _ _ _ hrest
  · rw [Except.error.injEq] at heq
    exact heq ▸ hb _ _ _ he

end Build

/-! ## Faults of a node -/

namespace Node

open Validation (plainText)

/-- The type of a node is no declaration, and its first offender has this text. -/
def Mistyped (node : Members) (typeName : String) : Prop :=
  ∃ declared culprit, Members.find? "type" node = some declared ∧ declared ≠ .null ∧
    (∀ decl : TypeDecl, decl.members ≠ [] → declared ≠ decl.toValue) ∧
    TypeDecl.FirstOffender declared culprit ∧ typeName = plainText culprit

/-- A key of a node is at fault: no type of the node allows it, or its value has the wrong shape. -/
inductive KeyFault (node : Members) : String → PropertyFault → Prop
  | notAllowed {key : String} {decl : TypeDecl} : key ∈ Members.keys node → decl.members ≠ [] →
      declaredType node = decl.toValue → (∀ t ∈ decl.members, t.allows key = false) →
      KeyFault node key (.notAllowed decl)
  | properties {v : Value} : Members.find? "properties" node = some v →
      (∀ children, v ≠ .object children) → KeyFault node "properties" .propertiesShape
  | items {v : Value} : Members.find? "items" node = some v → (∀ item, v ≠ .object item) →
      (∀ tuple, v ≠ .array tuple) → KeyFault node "items" .itemsShape

/-- The error belongs to a node of the document, and tells where. -/
inductive Offends (d : Value) : SchemaError → Prop
  | type {route : Route} {node : Members} {typeName : String} :
      at? route d = some (.object node) → Mistyped node typeName →
      Offends d (.invalidType typeName (location route))
  | key {route : Route} {node : Members} {key : String} {fault : PropertyFault} :
      at? route d = some (.object node) → KeyFault node key fault →
      Offends d (.invalidProperty key fault (location route))
  | child {route : Route} {node : Members} {name : String} {v : Value} :
      at? route d = some (.object node) → Step.into? node (.property name) = some v →
      (∀ child, v ≠ .object child) →
      Offends d (.invalidProperty name .childShape ((location route).property name))
  | item {route : Route} {node : Members} {index : Nat} {v : Value} :
      at? route d = some (.object node) → Step.into? node (.item index) = some v →
      (∀ child, v ≠ .object child) →
      Offends d (.invalidProperty "items" .itemShape ((location route).item index))

end Node

namespace Building

open Build (Errs)
open Node (Mistyped KeyFault Offends Route Step at?)

variable {parent : String → Build σ Members} {node : Members} {d : Value} {route : Route}
  {place : Pointer} {e : SchemaError}

/-! ## The node itself -/

theorem declaration_eq_error (h : declaration place node = .error e) :
    ∃ typeName, TypeDecl.ofValue ((Members.find? "type" node).getD .null) = .error typeName ∧
      e = .invalidType typeName place := by
  unfold declaration at h
  split at h
  · simp at h
  · case h_2 typeName htype => exact ⟨typeName, htype, (Except.error.inj h).symm⟩

theorem checkKeys_eq_error {decl : TypeDecl} (h : checkKeys place decl node = .error e) :
    ∃ key ∈ Members.keys node, decl.allows key = false ∧
      e = .invalidProperty key (.notAllowed decl) place := by
  induction node with
  | nil => simp [checkKeys] at h
  | cons entry rest ih =>
    rw [checkKeys] at h
    split at h
    · obtain ⟨key, hkey, hrest⟩ := ih h
      exact ⟨key, List.mem_cons_of_mem _ hkey, hrest⟩
    · case isFalse hallows =>
      exact ⟨entry.1, List.mem_cons_self, by simpa using hallows, (Except.error.inj h).symm⟩

theorem nonNull_eq_some {found : Option Value} {v : Value} (h : nonNull found = some v) :
    found = some v ∧ v ≠ .null := by
  unfold nonNull at h
  split at h
  · simp at h
  · case h_2 hne =>
    refine ⟨h, ?_⟩
    rintro rfl
    exact hne h

/-- A type that is filled in is a declaration, so one that is none was declared. -/
theorem mistyped_of_error {typeName : String}
    (h : TypeDecl.ofValue (Node.declaredType node) = .error typeName) : Mistyped node typeName := by
  obtain ⟨culprit, hculprit, hname⟩ := TypeDecl.ofValue_eq_error.mp h
  have hnone : ∀ decl : TypeDecl, decl.members ≠ [] → Node.declaredType node ≠ decl.toValue := by
    intro decl hmembers htype
    rw [TypeDecl.ofValue_eq_ok.mpr ⟨hmembers, htype⟩] at h
    simp at h
  cases hdeclared : nonNull (Members.find? "type" node) with
  | none =>
    have hdefault : Node.declaredType node = (TypeDecl.single .default).toValue := by
      rw [Node.declaredType, hdeclared]
      rfl
    exact absurd hdefault (hnone _ (by decide))
  | some declared =>
    have htype : Node.declaredType node = declared := by
      rw [Node.declaredType, hdeclared, Option.getD_some]
    obtain ⟨hfind, hnull⟩ := nonNull_eq_some hdeclared
    exact ⟨declared, culprit, hfind, hnull, htype ▸ hnone, htype ▸ hculprit, hname⟩

theorem errs_prepare (hu : Members.UniqueKeys node)
    (hextends : Members.find? "extends" node = none) (hat : at? route d = some (.object node)) :
    Errs (Offends d) (prepare parent (Node.location route) node) := by
  have htype : (Members.find? "type" (typed node)).getD .null = Node.declaredType node := by
    rw [find?_type_typed hu, Option.getD_some]
  rw [prepare_eq hu hextends]
  refine .bind (.ofExcept fun e he => ?_) fun s decl t hdecl =>
    .bind (.ofExcept fun e he => ?_) fun _ _ _ _ => .pure
  · obtain ⟨typeName, hname, rfl⟩ := declaration_eq_error he
    exact .type hat (mistyped_of_error (htype ▸ hname))
  · obtain ⟨hmembers, hdeclared⟩ := declaration_eq_ok.mp (Build.ends_ofExcept.mp hdecl).1.symm
    rw [find?_type_typed hu, Option.some.injEq] at hdeclared
    obtain ⟨key, hkey, hallows, rfl⟩ := checkKeys_eq_error he
    refine .key hat (.notAllowed ?_ hmembers hdeclared fun t ht => ?_)
    · -- the type may have been filled in, but every declaration allows it
      refine ((mem_keys_typed hu).mp hkey).resolve_left ?_
      rintro rfl
      simp [decl.allows_type hmembers] at hallows
    · simpa using List.any_eq_false.mp hallows t ht

/-! ## The nodes below it -/

section Children

variable {build : Pointer → Members → Build σ Members} (hat : at? route d = some (.object node))
  (hbuild : ∀ step child, Step.into? node step = some (.object child) →
    Errs (Offends d) (build (Node.location route ++ step.segments) child))

include hat hbuild

theorem errs_buildChildren {children : Members}
    (hchildren : ∀ name v, (name, v) ∈ children → Step.into? node (.property name) = some v) :
    Errs (Offends d) (buildChildren build (Node.location route) children) := by
  induction children with
  | nil => exact .pure
  | cons entry rest ih =>
    obtain ⟨name, v⟩ := entry
    have hv := hchildren name v List.mem_cons_self
    cases v with
    | object child =>
      exact .bind (hbuild _ child hv) fun _ _ _ _ =>
        .bind (ih fun other w hw => hchildren other w (List.mem_cons_of_mem _ hw))
          fun _ _ _ _ => .pure
    | _ => exact .throw (.child hat hv (by simp))

theorem errs_buildTuple {index : Nat} {tuple : List Value}
    (htuple : ∀ offset v, tuple[offset]? = some v →
      Step.into? node (.item (index + offset)) = some v) :
    Errs (Offends d) (buildTuple build (Node.location route) index tuple) := by
  induction tuple generalizing index with
  | nil => exact .pure
  | cons v rest ih =>
    have hv := htuple 0 v rfl
    cases v with
    | object child =>
      refine .bind (hbuild _ child hv) fun _ _ _ _ => .bind (ih fun offset w hw => ?_)
        fun _ _ _ _ => .pure
      rw [Nat.add_assoc, Nat.add_comm 1 offset]
      exact htuple (offset + 1) w hw
    | _ => exact .throw (.item hat hv (by simp))

variable {half : Members}

theorem errs_buildProperties (hu : Value.Unique (.object node))
    (hprops : Members.find? "properties" half = Members.find? "properties" node) :
    Errs (Offends d) (buildProperties build (Node.location route) half) := by
  unfold buildProperties
  rw [hprops]
  cases hfind : Members.find? "properties" node with
  | none => exact .pure
  | some v =>
    cases v with
    | object children =>
      refine .bind (errs_buildChildren hat hbuild fun name v hmem => ?_) fun _ _ _ _ => .pure
      exact Node.into?_property.mpr
        ⟨children, hfind, Members.find?_of_mem (hu.find? hfind).keys hmem⟩
    | _ => exact .throw (.key hat (.properties hfind (by simp)))

theorem errs_buildItems (hitems : Members.find? "items" half = Members.find? "items" node) :
    Errs (Offends d) (buildItems build (Node.location route) half) := by
  unfold buildItems
  rw [hitems]
  cases hfind : Members.find? "items" node with
  | none => exact .pure
  | some v =>
    cases v with
    | object item =>
      exact .bind (hbuild .items item (Node.into?_items.mpr ⟨hfind, by simp⟩))
        fun _ _ _ _ => .pure
    | array tuple =>
      refine .bind (errs_buildTuple hat hbuild fun offset v hv => ?_) fun _ _ _ _ => .pure
      rw [Nat.zero_add]
      exact Node.into?_item.mpr ⟨tuple, hfind, hv⟩
    | _ => exact .throw (.key hat (.items hfind (by simp) (by simp)))

end Children

/-- Building the properties leaves everything else as it is. -/
theorem find?_of_buildProperties {build : Pointer → Members → Build σ Members} {s t : σ}
    {half : Members} {key : String} (h : Ends (buildProperties build place node) s (.ok half) t)
    (hkey : key ≠ "properties") : Members.find? key half = Members.find? key node := by
  unfold buildProperties at h
  cases hfind : Members.find? "properties" node with
  | none =>
    rw [hfind] at h
    obtain ⟨rfl, -⟩ := Build.ends_pure_ok.mp h
    rfl
  | some v =>
    rw [hfind] at h
    cases v with
    | object children =>
      obtain ⟨built, -, rfl⟩ := Build.ends_bind_pure_ok.mp h
      rw [Members.find?_set, if_neg hkey.symm]
    | _ => simpa using (Build.ends_throw.mp h).1

/-- Whatever error the build of a node without references gives, it tells where it belongs. -/
theorem errs_buildNode {levels : Nat} (hu : Value.Unique (.object node))
    (hclosed : Node.NoReferences (.object node)) (hat : at? route d = some (.object node)) :
    Errs (Offends d) (buildNode parent levels (Node.location route) node) := by
  -- on the levels left; each step down from a node makes its route longer by that step
  induction levels generalizing route node with
  | zero => exact .unfinished
  | succ levels ih =>
    have hbuild : ∀ step child, Step.into? node step = some (.object child) →
        Errs (Offends d) (buildNode parent levels (Node.location route ++ step.segments) child) := by
      intro step child hchild
      have hpart : Node.Part node (.object child) := (Node.part_iff_into? hu).mpr ⟨step, hchild⟩
      rw [← Node.location_concat]
      exact ih (hpart.unique hu) ((Node.noReferences_object_iff.mp hclosed).2 _ hpart)
        ((Node.at?_concat hat).trans hchild)
    have hextends := hclosed node (.root _)
    rw [buildNode]
    refine .bind (errs_prepare hu.keys hextends hat) fun s prepared t hprepared => ?_
    obtain ⟨-, rfl, -⟩ := (decides_prepare hu.keys hextends).ok_iff.mp hprepared
    refine .bind (errs_buildProperties hat hbuild hu (find?_typed hu.keys (by decide)))
      fun _ half _ hhalf => errs_buildItems hat hbuild ?_
    rw [find?_of_buildProperties hhalf (by decide), find?_typed hu.keys (by decide)]

end Building
end Schemata
