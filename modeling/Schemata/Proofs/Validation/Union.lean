import Mathlib.Algebra.Ring.Nat
import Schemata.Pattern.Search
import Schemata.Proofs.Validation.Validator

/-!
# Unions of types

A node may declare a list of types.  Checking it comes to checking the node once for each of them,
as if it declared that type alone (`Validator.trial`): the union passes if one of these trials
does, and otherwise the messages of all of them are told at the path of the union, trial by trial.
-/

namespace Schemata.Validation

open Json (Members Value)

/-! ## Other declarations -/

/-- The node with another declaration of its type. -/
def withType (decl : TypeDecl) (node : Members) : Members :=
  Members.set "type" decl.toValue node

section Declarations

variable {node : Members} {decl decl' : TypeDecl}

theorem find?_withType {key : String} (hkey : key ≠ "type") :
    Members.find? key (withType decl node) = Members.find? key node := by
  rw [withType, Members.find?_set, if_neg hkey.symm]

theorem declaration?_withType (h : decl.members ≠ []) :
    Schema.declaration? (withType decl node) = some decl :=
  Schema.declaration?_eq_some.mpr ⟨h, by rw [withType, Members.find?_set, if_pos rfl]⟩

/-- As one of its types, a node is what it is without its declaration. -/
theorem ofMembersAs_withType (type : SchemaType) :
    Schema.ofMembersAs type (withType decl node) = Schema.ofMembersAs type node := by
  have hfacets : Facets.ofMembers (withType decl node) = Facets.ofMembers node := by
    unfold Facets.ofMembers
    simp (disch := decide) only [find?_withType]
  have hproperties : Schema.propertiesOf (withType decl node) = Schema.propertiesOf node := by
    rw [propertiesOf_eq, propertiesOf_eq, declared, declared, find?_withType (by decide)]
  have hitems : Schema.itemsOf (withType decl node) = Schema.itemsOf node := by
    rw [itemsOf_eq, itemsOf_eq, find?_withType (by decide)]
  rw [Schema.ofMembersAs, Schema.ofMembersAs, hfacets, hproperties, hitems]

end Declarations

/-! ## Telling a trial -/

/-- The messages of a member's trial as the union tells them: behind the member's name, and behind
their own path where that is not the path of the union. -/
def Errors.toldAs (type : SchemaType) (path : String) (trial : Errors) : List String :=
  trial.toList.map fun (place, message) =>
    "type '" ++ type.name ++ "': " ++ if place = path then message else place ++ " " ++ message

theorem Errors.length_toldAs (type : SchemaType) (path : String) (trial : Errors) :
    (trial.toldAs type path).length = trial.messageCount := by
  rw [toldAs, List.length_map, messageCount_eq_length]

theorem message_ofMember (type : SchemaType) (path place : String) (violation : Violation) :
    (Violation.ofMember type (if place = path then none else some place) violation).message =
      "type '" ++ type.name ++ "': " ++
        if place = path then violation.message else place ++ " " ++ violation.message := by
  by_cases hpath : place = path
  · rw [if_pos hpath, if_pos hpath]
    rfl
  · rw [if_neg hpath, if_neg hpath]
    change "type '" ++ type.name ++ "': " ++ place ++ " " ++ violation.message = _
    simp only [String.append_assoc]

/-- A union tells of a member what a collection of its violations holds. -/
theorem messages_memberLog (type : SchemaType) (path : String) (log : Log) :
    (memberLog type path log).messages =
      ((Errors.empty.addAll log.messages).toldAs type path).map fun message => (path, message) := by
  have hsort : (log.mergeSort Log.pathOrder).map (fun entry => (entry.1, entry.2.message)) =
      log.messages.mergeSort Log.pathOrder :=
    List.map_mergeSort fun _ _ _ _ => rfl
  have hmember : memberLog type path log = (log.mergeSort Log.pathOrder).map fun entry =>
      (path, .ofMember type (if entry.1 = path then none else some entry.1) entry.2) := rfl
  rw [Errors.toldAs, Errors.toList_addAll_empty, ← hsort, hmember, Log.messages, List.map_map,
    List.map_map, List.map_map]
  refine List.map_congr_left fun entry _ => Prod.ext rfl ?_
  exact message_ofMember type path entry.1 entry.2

/-! ## Checking a union -/

namespace Validator

variable {μ : Type} (v : Validator μ) (value : Value) (node : Members) (path : String)

/-- What a check finds if the node declares one type alone, collected by itself. -/
def trial (type : SchemaType) : Errors :=
  (v.check value (.object (withType (.single type) node)) path .empty).1

theorem trial_eq (type : SchemaType) :
    v.trial value node path type =
      Errors.empty.addAll
        (Schema.check v.policy (Schema.ofMembersAs type node) value path).messages := by
  rw [trial, check_eq_addAll, check_ofValue_object,
    declaration?_withType (by simp [TypeDecl.members])]
  dsimp only
  rw [ofMembersAs_withType]

theorem trial_withType (decl : TypeDecl) :
    v.trial value (withType decl node) path = v.trial value node path := by
  funext type
  rw [trial_eq, trial_eq, ofMembersAs_withType]

theorem trial_eq_empty_iff (type : SchemaType) :
    v.trial value node path type = .empty ↔
      Schema.check v.policy (Schema.ofMembersAs type node) value path = [] := by
  rw [trial_eq, Errors.addAll_eq_self_iff, Log.messages, List.map_eq_nil_iff]

section Union

variable {node : Members} {types : List SchemaType}
  (hdecl : Schema.declaration? node = some (.union types)) (errors : Errors)

include hdecl

theorem check_union :
    (v.check value (.object node) path errors).1 = errors.addAll ((tryMembers (fun type =>
      Schema.check v.policy (Schema.ofMembersAs type node) value path) path types).getD
        []).messages := by
  rw [check_eq_addAll, check_ofValue_object, hdecl]

/-- A union passes exactly if the trial of a member does. -/
theorem check_union_eq_self_iff :
    (v.check value (.object node) path errors).1 = errors ↔
      ∃ type ∈ types, v.trial value node path type = .empty := by
  have htypes : types ≠ [] := (Schema.declaration?_eq_some.mp hdecl).1
  rw [v.check_union value path hdecl, Errors.addAll_eq_self_iff, Log.messages,
    List.map_eq_nil_iff, tryMembers_getD_eq_nil_iff htypes]
  simp only [trial_eq_empty_iff]

/-- If no trial passes, all of them are told at the path of the union. -/
theorem check_union_of_failing
    (hfail : ∀ type ∈ types, v.trial value node path type ≠ .empty) :
    (v.check value (.object node) path errors).1 =
      errors.addAll ((types.flatMap fun type =>
        (v.trial value node path type).toldAs type path).map fun message => (path, message)) := by
  have hlog : ∀ type ∈ types,
      Schema.check v.policy (Schema.ofMembersAs type node) value path ≠ [] :=
    fun type htype hnil => hfail type htype ((v.trial_eq_empty_iff value node path type).mpr hnil)
  have htold : ∀ type, (memberLog type path
      (Schema.check v.policy (Schema.ofMembersAs type node) value path)).messages =
        ((v.trial value node path type).toldAs type path).map fun message => (path, message) := by
    intro type
    rw [messages_memberLog, ← trial_eq]
  rw [v.check_union value path hdecl, tryMembers_of_failing hlog, Option.getD_some, Log.messages,
    List.map_flatMap, List.map_flatMap]
  exact congrArg (fun told => errors.addAll (types.flatMap told)) (funext htold)

/-- A check of a union passes exactly if the check against one of its types alone does.  If none
does, it adds messages at the path of the union only: those of all single checks, type by type, each
behind the name of the type and, if it came from below, behind its own path.  So it does not matter
for the verdict in which order the types are listed, or how often, and the order of the types is the
order of their blocks of messages. -/
theorem union_passes_or_tells_all_trials (hordered : errors.Ordered) :
    let after := (v.check value (.object node) path errors).1
    let trial := v.trial value node path
    let told := fun type => (trial type).toldAs type path
    (after = errors ↔ ∃ type ∈ types, trial type = .empty) ∧
    ((∀ type ∈ types, trial type ≠ .empty) →
      (∀ place, place ≠ path → after.find? place = errors.find? place) ∧
      after.messagesAt path = errors.messagesAt path ++ (types.map told).flatten ∧
      after.messageCount =
        errors.messageCount + (types.map fun type => (trial type).messageCount).sum) ∧
    ∀ types', (∀ type, type ∈ types' ↔ type ∈ types) →
      let after' := (v.check value (.object (withType (.union types') node)) path errors).1
      (after' = errors ↔ after = errors) ∧
      (types'.Perm types → (∀ type ∈ types, trial type ≠ .empty) →
        after'.messagesAt path = errors.messagesAt path ++ (types'.map told).flatten ∧
          (types'.map told).Perm (types.map told)) := by
  intro after trial told
  have hpass : after = errors ↔ ∃ type ∈ types, trial type = .empty :=
    v.check_union_eq_self_iff value path hdecl errors
  have htypes : types ≠ [] := (Schema.declaration?_eq_some.mp hdecl).1
  refine ⟨hpass, fun hfail => ?_, fun types' hsame => ?_⟩
  · have hafter : after = errors.addAll ((types.flatMap told).map fun message => (path, message)) :=
      v.check_union_of_failing value path hdecl errors hfail
    refine ⟨fun place hplace => ?_, ?_, ?_⟩
    · rw [hafter, Errors.find?_addAll hordered, Log.entriesAt_map_of_ne hplace.symm, if_pos rfl,
        Option.merge_none_right]
    · rw [hafter, Errors.messagesAt_addAll hordered, Log.entriesAt_map_self, List.flatMap_def]
    · rw [hafter, Errors.messageCount_addAll, List.length_map, List.length_flatMap]
      simp only [told, Errors.length_toldAs]
  · have hne : types' ≠ [] := by
      obtain ⟨type, htype⟩ := List.exists_mem_of_ne_nil _ htypes
      exact List.ne_nil_of_mem ((hsame type).mpr htype)
    have hdecl' : Schema.declaration? (withType (.union types') node) = some (.union types') :=
      declaration?_withType hne
    intro after'
    refine ⟨?_, fun hperm hfail => ⟨?_, hperm.map told⟩⟩
    · rw [hpass, v.check_union_eq_self_iff value path hdecl' errors, trial_withType]
      simp only [hsame, trial]
    · have hfail' : ∀ type ∈ types', v.trial value (withType (.union types') node) path type ≠
          .empty := by
        rw [trial_withType]
        exact fun type htype => hfail type ((hsame type).mp htype)
      rw [show after' = _ from v.check_union_of_failing value path hdecl' errors hfail',
        Errors.messagesAt_addAll hordered, Log.entriesAt_map_self, trial_withType,
        List.flatMap_def]

end Union

/-- A node that declares two types, and one property for the first of them. -/
def objectOrNull : Members :=
  [("type", .array [.string "object", .string "null"]),
    ("properties", .object [("a", .object [("type", .string "string")])])]

def numbered : Value :=
  .object [("a", .array []), ("b", .null)]

def beforehand : Errors :=
  Errors.empty.add "$" "was read"

theorem numbered_is_told_by_both :
    let v := fresh Pattern.engine false
    let after := (v.check numbered (.object objectOrNull) "$" beforehand).1
    Schema.declaration? objectOrNull = some (.union [.object, .null]) ∧ beforehand.Ordered ∧
      (∀ type ∈ [SchemaType.object, .null], v.trial numbered objectOrNull "$" type ≠ .empty) ∧
      after ≠ beforehand ∧
      after.messagesAt "$" = ["was read"] ++ (["type 'object': $.a must be a string",
        "type 'object': $.b is not listed in schema"] ++ ["type 'null': must be null"]) ∧
      (v.check numbered (.object (withType (.union [.null, .object]) objectOrNull)) "$"
        beforehand).1.messagesAt "$" = ["was read"] ++ (["type 'null': must be null"] ++
          ["type 'object': $.a must be a string", "type 'object': $.b is not listed in schema"]) := by
  intro v after
  have hdecl : Schema.declaration? objectOrNull = some (.union [.object, .null]) := by decide
  have hordered : beforehand.Ordered := Errors.ordered_empty.add _ _
  have hobject : (v.trial numbered objectOrNull "$" .object).toldAs .object "$" =
      ["type 'object': $.a must be a string", "type 'object': $.b is not listed in schema"] := by
    decide +kernel
  have hnull : (v.trial numbered objectOrNull "$" .null).toldAs .null "$" =
      ["type 'null': must be null"] := by
    decide +kernel
  have hfail : ∀ type ∈ [SchemaType.object, .null],
      v.trial numbered objectOrNull "$" type ≠ .empty := by
    decide +kernel
  obtain ⟨hpass, htold, horder⟩ :=
    v.union_passes_or_tells_all_trials numbered "$" hdecl beforehand hordered
  refine ⟨hdecl, hordered, hfail, fun hsame => ?_, ?_, ?_⟩
  · obtain ⟨type, htype, hempty⟩ := hpass.mp hsame
    exact hfail type htype hempty
  · rw [(htold hfail).2.1]
    simp [hobject, hnull, show beforehand.messagesAt "$" = ["was read"] from by decide +kernel]
  · have hperm : [SchemaType.null, .object].Perm [.object, .null] := .swap _ _ _
    rw [((horder _ fun type => hperm.mem_iff).2 hperm hfail).1]
    simp [hobject, hnull, show beforehand.messagesAt "$" = ["was read"] from by decide +kernel]

end Validator
end Schemata.Validation
