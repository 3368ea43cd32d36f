import Schemata.Pattern.Search
import Schemata.Proofs.Json.Walk
import Schemata.Proofs.Validation.Validator

/-!
# Where checks report

A check reports at paths that begin with the path it was given and go on with steps into the
instance.  `located_check` says where the steps lead: to a value, or, for a property that is
required and missing, from an object to a key that it lacks.  What a check reports does not depend
on what was reported before; it is appended path by path.
-/

namespace Schemata.Validation

open Json (Members Number Value)

/-! ## Paths of steps -/

/-- The path that steps lead to. -/
def along (path : String) (steps : List String) : String :=
  steps.foldl below path

/-- The steps lead to a value, or to a key that an object lacks; in that case the violation is that
the key is undefined. -/
inductive Located (v : Value) (steps : List String) : Violation → Prop
  | value {w : Value} {violation : Violation} : v.walk? steps = some w → Located v steps violation
  | missing {front : List String} {members : Members} {last : String} :
      steps = front ++ [last] → v.walk? front = some (.object members) →
        Members.find? last members = none → Located v steps .undefined

/-- Every violation of the log stands at a path of steps into the value that lead where they
should. -/
def LocatedAll (v : Value) (path : String) (log : Log) : Prop :=
  ∀ entry ∈ log, ∃ steps, entry.1 = along path steps ∧ Located v steps entry.2

namespace LocatedAll

variable {v w : Value} {path key : String} {log log' : Log}

theorem nil : LocatedAll v path [] := by
  simp [LocatedAll]

theorem append (h : LocatedAll v path log) (h' : LocatedAll v path log') :
    LocatedAll v path (log ++ log') := by
  intro entry hentry
  rcases List.mem_append.mp hentry with hfirst | hsecond
  · exact h entry hfirst
  · exact h' entry hsecond

/-- What is said of the value itself stands at its path. -/
theorem of_own (h : ∀ entry ∈ log, entry.1 = path) : LocatedAll v path log :=
  fun entry hentry => ⟨[], h entry hentry, .value rfl⟩

theorem of_step (hstep : v.step? key = some w) (h : LocatedAll w (below path key) log) :
    LocatedAll v path log := by
  rintro ⟨place, violation⟩ hentry
  obtain ⟨steps, hpath, hlocated⟩ := h _ hentry
  refine ⟨key :: steps, hpath, ?_⟩
  cases hlocated with
  | value hwalk => exact .value ((Value.walk?_cons_of_step hstep).trans hwalk)
  | missing hsteps hwalk hlacks =>
    exact .missing (congrArg (key :: ·) hsteps) ((Value.walk?_cons_of_step hstep).trans hwalk)
      hlacks

end LocatedAll

/-! ## Violations of the value itself -/

section Own

variable {path : String} {f : Facets} {v : Value} {entry : String × Violation}

theorem path_of_mem_reportIf {condition : Bool} {violation : Violation}
    (h : entry ∈ reportIf condition path violation) : entry.1 = path := by
  unfold reportIf at h
  split at h
  · rw [List.mem_singleton.mp h]
  · simp at h

theorem path_of_mem_checkAllowed (h : entry ∈ f.checkAllowed v path) : entry.1 = path := by
  unfold Facets.checkAllowed at h
  split at h
  · simp at h
  · exact path_of_mem_reportIf h

theorem path_of_mem_checkNumber {n : Number} (h : entry ∈ f.checkNumber n path) :
    entry.1 = path := by
  unfold Facets.checkNumber at h
  rw [List.mem_append, List.mem_append] at h
  rcases h with (hmin | hmax) | hallowed
  · split at hmin
    · simp at hmin
    · exact path_of_mem_reportIf hmin
  · split at hmax
    · simp at hmax
    · exact path_of_mem_reportIf hmax
  · exact path_of_mem_checkAllowed hallowed

theorem path_of_mem_checkString {policy : Policy} {s : String}
    (h : entry ∈ f.checkString policy s path) : entry.1 = path := by
  unfold Facets.checkString at h
  rw [List.mem_append, List.mem_append, List.mem_append] at h
  rcases h with ((hpattern | hmax) | hmin) | hallowed
  · split at hpattern
    · simp at hpattern
    · exact path_of_mem_reportIf hpattern
  · split at hmax
    · simp at hmax
    · exact path_of_mem_reportIf hmax
  · split at hmin
    · simp at hmin
    · exact path_of_mem_reportIf hmin
  · exact path_of_mem_checkAllowed hallowed

/-- Whatever its members found and wherever, a union reports at its own path. -/
theorem path_of_mem_tryMembers {trial : SchemaType → Log} {types : List SchemaType}
    (h : entry ∈ (tryMembers trial path types).getD []) : entry.1 = path := by
  by_cases hpass : ∃ type ∈ types, trial type = []
  · simp [tryMembers_eq_none_iff.mpr hpass] at h
  · have hfail : ∀ type ∈ types, trial type ≠ [] :=
      fun type htype hnil => hpass ⟨type, htype, hnil⟩
    rw [tryMembers_of_failing hfail, Option.getD_some] at h
    obtain ⟨type, -, hmember⟩ := List.mem_flatMap.mp h
    obtain ⟨found, -, rfl⟩ := List.mem_map.mp hmember
    rfl

end Own

/-! ## Violations of children -/

section Children

variable {policy : Policy} {node members : Members} {path : String}

theorem locatedAll_checkKeys (f : Facets) (names : List String) :
    LocatedAll (.object members) path (f.checkKeys policy names members path) := by
  unfold Facets.checkKeys
  split
  · exact .nil
  · intro entry hentry
    obtain ⟨key, hkey, rfl⟩ := List.mem_map.mp hentry
    have hmem : key ∈ Members.keys members := (List.mem_filter.mp hkey).1
    obtain ⟨w, hfind⟩ : ∃ w, Members.find? key members = some w :=
      Option.ne_none_iff_exists'.mp fun hnone => Members.find?_eq_none_iff.mp hnone hmem
    exact ⟨[key], rfl, .value (Value.walk?_cons_of_step (v := .object members) hfind)⟩

theorem locatedAll_checkProperties {children : Members}
    (h : ∀ entry ∈ children, ∀ v path,
      LocatedAll v path (Schema.check policy (.ofValue entry.2) v path)) :
    LocatedAll (.object members) path
      (Schema.checkProperties policy (Schema.childrenOf children) members path) := by
  induction children with
  | nil => exact .nil
  | cons entry rest ih =>
    obtain ⟨name, child⟩ := entry
    rw [List.forall_mem_cons] at h
    rw [Schema.childrenOf, Schema.checkProperties]
    refine .append ?_ (ih h.2)
    cases hfind : Members.find? name members with
    | some v => exact .of_step (v := .object members) hfind (h.1 v _)
    | none =>
      intro entry hentry
      dsimp only at hentry
      unfold reportIf at hentry
      split at hentry
      · obtain rfl := List.mem_singleton.mp hentry
        exact ⟨[name], rfl, .missing (List.nil_append _).symm rfl hfind⟩
      · simp at hentry

theorem locatedAll_checkTuple {tuple values items : List Value} {index : Nat}
    (hvalues : ∀ i, values[i]? = items[index + i]?)
    (h : ∀ item ∈ tuple, ∀ v path,
      LocatedAll v path (Schema.check policy (.ofValue item) v path)) :
    LocatedAll (.array items) path
      (Schema.checkTuple policy (Schema.tupleOf tuple) values path index) := by
  induction tuple generalizing values index with
  | nil => simpa [Schema.tupleOf, Schema.checkTuple] using LocatedAll.nil
  | cons item rest ih =>
    cases values with
    | nil => simpa [Schema.tupleOf, Schema.checkTuple] using LocatedAll.nil
    | cons v values =>
      rw [List.forall_mem_cons] at h
      rw [Schema.tupleOf, Schema.checkTuple]
      have hitem : items[index]? = some v := by simpa using (hvalues 0).symm
      refine .append (.of_step (Value.step?_item hitem) (h.1 v _)) (ih (fun i => ?_) h.2)
      have hnext := hvalues (i + 1)
      rwa [List.getElem?_cons_succ, ← Nat.add_assoc, Nat.add_right_comm] at hnext

theorem locatedAll_checkItems {items : List Value}
    (h : ∀ part, Node.Part node part → ∀ v path,
      LocatedAll v path (Schema.check policy (.ofValue part) v path)) :
    LocatedAll (.array items) path
      (Schema.checkItems policy (Schema.itemsOf node) items path) := by
  have heach : ∀ schema,
      (∀ v path, LocatedAll v path (Schema.check policy (.ofValue schema) v path)) →
        LocatedAll (.array items) path
          (Schema.checkItems policy (.each (.ofValue schema)) items path) := by
    intro schema hschema entry hentry
    rw [Schema.checkItems] at hentry
    obtain ⟨⟨v, index⟩, hitem, hfound⟩ := List.mem_flatMap.mp hentry
    have hstep := Value.step?_item (List.mk_mem_zipIdx_iff_getElem?.mp hitem)
    exact LocatedAll.of_step hstep (hschema v _) entry hfound
  rw [itemsOf_eq]
  cases hitems : Members.find? "items" node with
  | none => simpa [Schema.checkItems] using LocatedAll.nil
  | some item =>
    cases item with
    | array tuple =>
      simp only [Schema.checkItems]
      exact locatedAll_checkTuple (fun i => by rw [Nat.zero_add])
        fun item hitem => h item (.tupleItem hitems hitem)
    | _ => exact heach _ (h _ (.item hitems (by simp)))

end Children

/-! ## Checks -/

section Checks

variable {policy : Policy} {node : Members} {v : Value} {path : String}

theorem locatedAll_check_ofMembersAs (type : SchemaType)
    (h : ∀ part, Node.Part node part → ∀ v path,
      LocatedAll v path (Schema.check policy (.ofValue part) v path)) :
    LocatedAll v path (Schema.check policy (Schema.ofMembersAs type node) v path) := by
  have hown : ∀ violation, LocatedAll v path [(path, violation)] := fun violation =>
    .of_own fun entry hentry => by rw [List.mem_singleton.mp hentry]
  rw [Schema.ofMembersAs, Schema.check.eq_def]
  cases type with
  | any => exact .nil
  | null =>
    cases v with
    | null => exact .nil
    | _ => exact hown .notNull
  | boolean =>
    cases v with
    | bool b => exact .nil
    | _ => exact hown .notBoolean
  | number =>
    cases v with
    | number n => exact .of_own fun entry => path_of_mem_checkNumber
    | _ => exact hown .notNumber
  | integer =>
    cases v with
    | number n =>
      dsimp only
      split
      · exact .of_own fun entry => path_of_mem_checkNumber
      · exact hown .notInteger
    | _ => exact hown .notInteger
  | string =>
    cases v with
    | string s => exact .of_own fun entry => path_of_mem_checkString
    | _ => exact hown .notString
  | array =>
    cases v with
    | array items =>
      dsimp only
      split
      · exact hown _
      · exact .append (.of_own fun entry => path_of_mem_reportIf) (locatedAll_checkItems h)
    | _ => exact hown .notArray
  | object =>
    cases v with
    | object members =>
      rw [propertiesOf_eq]
      exact .append (locatedAll_checkProperties fun entry hentry => h _ (part_of_declared hentry))
        (locatedAll_checkKeys _ _)
    | _ => exact hown .notObject

/-- Wherever a check finds something, it stands at a path of steps into the value. -/
theorem located_check (schema : Value) (v : Value) (path : String) :
    LocatedAll v path (Schema.check policy (.ofValue schema) v path) := by
  -- on the node positions of the schema, since every step into the value goes with one into it
  induction schema using Node.nodeInduction generalizing v path with
  | leaf schema hleaf =>
    rw [check_ofValue_leaf hleaf]
    exact .nil
  | node node ih =>
    rw [check_ofValue_object]
    cases Schema.declaration? node with
    | none => exact .nil
    | some decl =>
      cases decl with
      | single type => exact locatedAll_check_ofMembersAs type fun part hpart => ih part hpart
      | union types => exact .of_own fun entry => path_of_mem_tryMembers

end Checks

namespace Validator

variable {μ : Type}

/-- A check leaves what was reported before as it is and appends, at every path, what it reports by
itself.  It reports at paths that go on from its own with steps into the instance: the steps lead to
a value, or to a key that an object lacks, and there the key is reported as not defined. -/
theorem check_appends_at_real_places (v : Validator μ) (value schema : Value) (path : String)
    (errors : Errors) (hordered : errors.Ordered) :
    let after := (v.check value schema path errors).1
    let added := (v.check value schema path .empty).1
    after.Ordered ∧
    (∀ place, after.find? place =
      Option.merge (· ++ ·) (errors.find? place) (added.find? place)) ∧
    ∀ place messages, (place, messages) ∈ added.entries → messages ≠ [] ∧
      ∃ steps, place = along path steps ∧
        ((∃ w, value.walk? steps = some w) ∨
          ∃ front last members, steps = front ++ [last] ∧
            value.walk? front = some (.object members) ∧ Members.find? last members = none ∧
            "is not defined" ∈ messages) := by
  intro after added
  let log : Log := Schema.check v.policy (.ofValue schema) value path
  have hafter : after = errors.addAll log.messages := v.check_eq_addAll value schema path errors
  have hadded : added = Errors.empty.addAll log.messages := v.check_eq_addAll value schema path _
  rw [hafter, hadded]
  refine ⟨hordered.addAll _, fun place => ?_, fun place messages hmem => ?_⟩
  · rw [Errors.find?_addAll hordered, Errors.find?_addAll_empty]
  · obtain ⟨hne, rfl⟩ : Log.entriesAt log.messages place ≠ [] ∧
        Log.entriesAt log.messages place = messages := by
      have hfind := Errors.find?_of_mem (Errors.ordered_empty.addAll _) hmem
      rw [Errors.find?_addAll_empty] at hfind
      split at hfind
      · simp at hfind
      · case isFalse hne => exact ⟨hne, Option.some.inj hfind⟩
    refine ⟨hne, ?_⟩
    obtain ⟨message, hmessage⟩ := List.exists_mem_of_ne_nil _ hne
    obtain ⟨⟨_, violation⟩, hentry, heq⟩ := List.mem_map.mp (Log.mem_entriesAt.mp hmessage)
    obtain ⟨rfl, rfl⟩ := Prod.mk.inj heq
    obtain ⟨steps, hpath, hlocated⟩ := located_check schema value path _ hentry
    refine ⟨steps, hpath, ?_⟩
    cases hlocated with
    | value hwalk => exact .inl ⟨_, hwalk⟩
    | missing hsteps hwalk hlacks => exact .inr ⟨_, _, _, hsteps, hwalk, hlacks, hmessage⟩

/-- An object with an empty key and a key that holds a dot. -/
def dotted : Value :=
  .object [("", .object [("a.b", .null)]), ("c", .array [.null])]

def dottedSchema : Value :=
  .object [("type", .string "object"), ("properties", .object [
    ("", .object [("type", .string "object")]),
    ("c", .object [("type", .string "array"), ("items", .object [("type", .string "string")])]),
    ("d", .object [("type", .string "any"), ("required", .bool true)])])]

def reported : Errors :=
  Errors.empty.add "$.c.0" "was reported"

theorem dotted_is_reported_in_place :
    let v := fresh Pattern.engine false
    let after := (v.check dotted dottedSchema "$" reported).1
    let added := (v.check dotted dottedSchema "$" .empty).1
    reported.Ordered ∧ after.Ordered ∧
      after.find? "$.c.0" = some (["was reported"] ++ ["must be a string"]) ∧
      added.entries = [("$..a.b", ["is not listed in schema"]), ("$.c.0", ["must be a string"]),
        ("$.d", ["is not defined"])] ∧
      ∃ steps, "$..a.b" = along "$" steps ∧
        ((∃ w, dotted.walk? steps = some w) ∨
          ∃ front last members, steps = front ++ [last] ∧
            dotted.walk? front = some (.object members) ∧ Members.find? last members = none ∧
            "is not defined" ∈ ["is not listed in schema"]) := by
  intro v after added
  have hordered : reported.Ordered := Errors.ordered_empty.add _ _
  have hadded : added.entries = [("$..a.b", ["is not listed in schema"]),
      ("$.c.0", ["must be a string"]), ("$.d", ["is not defined"])] := by
    decide +kernel
  obtain ⟨hafter, hfind, hplaces⟩ :=
    v.check_appends_at_real_places dotted dottedSchema "$" reported hordered
  refine ⟨hordered, hafter, ?_, hadded, ?_⟩
  · rw [hfind, show added.find? "$.c.0" = some ["must be a string"] from by decide +kernel,
      show reported.find? "$.c.0" = some ["was reported"] from by decide +kernel]
    rfl
  · have hmem : ("$..a.b", ["is not listed in schema"]) ∈ added.entries := by
      rw [hadded]
      exact List.mem_cons_self
    exact (hplaces _ _ hmem).2

end Validator
end Schemata.Validation
