import Mathlib.Data.List.Infix
import Schemata.Proofs.Validation.Satisfaction

/-!
# Memory changes no answer

What is found through a memory of patterns is what `Schema.check` finds under the policy that the
memory means, and the memory only grows: it keeps its entries and adds patterns that it did not
hold with what they compile to.  This is shown of one look-up, and of larger work by the laws for
putting work together.
-/

namespace Schemata.Validation

open Json (Members Value)

variable {μ : Type}

/-! ## Growing memories -/

namespace PatternCache

variable (engine : Engine μ) (cache : PatternCache μ)

/-- Remembers all patterns of a list. -/
def rememberAll (patterns : List String) : PatternCache μ :=
  patterns.foldl (remember engine) cache

/-- Every pattern is held with what it compiles to. -/
def Faithful : Prop :=
  ∀ entry ∈ cache, entry.2 = engine.compile entry.1

theorem rememberAll_append (patterns others : List String) :
    cache.rememberAll engine (patterns ++ others) =
      (cache.rememberAll engine patterns).rememberAll engine others :=
  List.foldl_append

theorem search_remember (pattern : String) :
    (cache.remember engine pattern).search engine = cache.search engine := by
  unfold remember
  split
  · rfl
  · case h_2 hnone =>
    funext other text
    unfold search
    rw [List.lookup_append]
    by_cases hother : other = pattern
    · subst hother
      simp [hnone]
    · have hbeq : (other == pattern) = false := by simpa using hother
      rw [List.lookup_cons, hbeq, List.lookup_nil, Option.or_none]

theorem search_rememberAll (patterns : List String) :
    (cache.rememberAll engine patterns).search engine = cache.search engine := by
  induction patterns generalizing cache with
  | nil => rfl
  | cons pattern rest ih => exact (ih _).trans (search_remember engine cache pattern)

theorem prefix_remember (pattern : String) : cache <+: cache.remember engine pattern := by
  unfold remember
  split
  · exact List.prefix_rfl
  · exact List.prefix_append _ _

theorem prefix_rememberAll (patterns : List String) :
    cache <+: cache.rememberAll engine patterns := by
  induction patterns generalizing cache with
  | nil => exact List.prefix_rfl
  | cons pattern rest ih => exact (prefix_remember engine cache pattern).trans (ih _)

variable {engine cache}

theorem Faithful.remember (h : cache.Faithful engine) (pattern : String) :
    Faithful engine (cache.remember engine pattern) := by
  unfold PatternCache.remember
  split
  · exact h
  · intro entry hentry
    rcases List.mem_append.mp hentry with hold | hnew
    · exact h entry hold
    · rw [List.mem_singleton.mp hnew]

theorem Faithful.rememberAll (h : cache.Faithful engine) (patterns : List String) :
    Faithful engine (cache.rememberAll engine patterns) := by
  induction patterns generalizing cache with
  | nil => exact h
  | cons pattern rest ih => exact ih (h.remember pattern)

end PatternCache

/-! ## Work that looks patterns up -/

namespace Recalling

variable {α β : Type} {engine : Engine μ} {search : String → String → Bool}

/-- On every memory through which searches come out as they should, the work answers `a` and adds
to the memory. -/
def Answers (engine : Engine μ) (search : String → String → Bool) (work : Recalling μ α) (a : α) :
    Prop :=
  ∀ cache : PatternCache μ, cache.search engine = search →
    ∃ patterns, work.run cache = (a, cache.rememberAll engine patterns)

theorem answers_pure (a : α) : Answers engine search (pure a) a :=
  fun _ _ => ⟨[], rfl⟩

theorem Answers.bind {work : Recalling μ α} {next : α → Recalling μ β} {a : α} {b : β}
    (h : Answers engine search work a) (h' : Answers engine search (next a) b) :
    Answers engine search (work >>= next) b := by
  intro cache hcache
  obtain ⟨patterns, hrun⟩ := h cache hcache
  obtain ⟨others, hrun'⟩ := h' (cache.rememberAll engine patterns)
    ((PatternCache.search_rememberAll engine cache patterns).trans hcache)
  refine ⟨patterns ++ others, ?_⟩
  rw [PatternCache.rememberAll_append, ← hrun', StateT.run_bind, hrun]
  rfl

theorem Answers.map {work : Recalling μ α} {a : α} (h : Answers engine search work a) (f : α → β) :
    Answers engine search (do return f (← work)) (f a) :=
  h.bind (answers_pure (f a))

end Recalling

namespace Recall

open Recalling (Answers answers_pure)

variable {engine : Engine μ} {policy : Policy} {path : String}

theorem run_compiled (engine : Engine μ) (cache : PatternCache μ) (pattern : String) :
    (compiled engine pattern).run cache =
      ((cache.lookup pattern).getD (engine.compile pattern), cache.remember engine pattern) := by
  unfold compiled PatternCache.remember
  cases h : cache.lookup pattern with
  | some form =>
    simp only [StateT.run_bind, StateT.run_get, pure_bind, h]
    rfl
  | none =>
    simp only [StateT.run_bind, StateT.run_get, pure_bind, h]
    simp [h]
    rfl

/-- A search through the memory comes out as the memory says, and its pattern is then held. -/
theorem answers_hasMatch (pattern text : String) :
    Answers engine policy.search (hasMatch engine pattern text) (policy.search pattern text) := by
  intro cache hcache
  refine ⟨[pattern], ?_⟩
  rw [← hcache, hasMatch, StateT.run_bind, run_compiled, PatternCache.search]
  cases (cache.lookup pattern).getD (engine.compile pattern) <;> rfl

theorem checkString_settled (f : Facets) (s : String) (found : Bool)
    (h : ∀ pattern, f.pattern = some pattern → found = policy.search pattern s) :
    f.checkString (settled policy.allowAdditional found) s path =
      f.checkString policy s path := by
  unfold Facets.checkString settled
  cases hpattern : f.pattern with
  | none => rfl
  | some pattern => rw [h pattern hpattern]

theorem answers_checkString (f : Facets) (s : String) :
    Answers engine policy.search (checkString engine policy.allowAdditional f s path)
      (f.checkString policy s path) := by
  unfold checkString
  cases hpattern : f.pattern with
  | none =>
    rw [← checkString_settled f s true fun pattern h => by simp [hpattern] at h]
    exact (answers_pure true).bind (answers_pure _)
  | some pattern =>
    rw [← checkString_settled f s (policy.search pattern s) fun other h => by
      rw [hpattern, Option.some.injEq] at h
      rw [h]]
    exact (answers_hasMatch pattern s).bind (answers_pure _)

theorem answers_gather {α : Type} {find : α → Recalling μ Log} {log : α → Log} {l : List α}
    (h : ∀ a ∈ l, Answers engine policy.search (find a) (log a)) :
    Answers engine policy.search (gather find l) (l.flatMap log) := by
  induction l with
  | nil => exact answers_pure []
  | cons a rest ih =>
    rw [List.forall_mem_cons] at h
    rw [List.flatMap_cons]
    exact h.1.bind ((ih h.2).map (log a ++ ·))

/-- The trials of a union's members stop at the first that passes, with a memory or without. -/
theorem answers_tryMembers {trial : SchemaType → Recalling μ Log} {log : SchemaType → Log}
    (h : ∀ type, Answers engine policy.search (trial type) (log type)) (types : List SchemaType) :
    Answers engine policy.search (tryMembers trial path types)
      (Validation.tryMembers log path types) := by
  induction types with
  | nil => exact answers_pure (some [])
  | cons type rest ih =>
    refine (h type).bind ?_
    unfold Validation.tryMembers
    cases log type with
    | nil => exact answers_pure none
    | cons entry found => exact ih.map (Option.map (memberLog type path (entry :: found) ++ ·))

/-! ## Checks -/

section Checks

variable {facets : Facets} {properties : List (String × Schema)} {items : Items Schema} {v : Value}

/-- The check of a node tries the types it declares. -/
theorem check_node {allowAdditional : Bool} {decl : Option TypeDecl} :
    check engine allowAdditional (.node decl facets properties items) v path =
      match decl with
      | none => pure []
      | some (.single type) =>
        check engine allowAdditional (.node (some (.single type)) facets properties items) v path
      | some (.union types) => do
        return (← tryMembers (fun type =>
          check engine allowAdditional (.node (some (.single type)) facets properties items) v path)
            path types).getD [] := by
  cases decl with
  | none => rw [check.eq_def]
  | some decl =>
    cases decl with
    | single type => rfl
    | union types =>
      rw [check.eq_def]
      rfl

/-- What a node of one type finds, if its properties and its items find the same with a memory as
without. -/
theorem answers_check_single
    (hproperties : ∀ members path, Answers engine policy.search
      (checkProperties engine policy.allowAdditional properties members path)
      (Schema.checkProperties policy properties members path))
    (hitems : ∀ values path, Answers engine policy.search
      (checkItems engine policy.allowAdditional items values path)
      (Schema.checkItems policy items values path)) (type : SchemaType) :
    Answers engine policy.search
      (check engine policy.allowAdditional (.node (some (.single type)) facets properties items) v
        path)
      (Schema.check policy (.node (some (.single type)) facets properties items) v path) := by
  rw [check.eq_def, Schema.check.eq_def]
  cases type with
  | string =>
    cases v with
    | string s => exact answers_checkString facets s
    | _ => exact answers_pure _
  | array =>
    cases v with
    | array values =>
      dsimp only
      cases facets.itemCount? values.length with
      | some violation => exact answers_pure _
      | none => exact (hitems values path).map _
    | _ => exact answers_pure _
  | object =>
    cases v with
    | object members => exact (hproperties members path).map _
    | _ => exact answers_pure _
  | _ => cases v <;> exact answers_pure _

end Checks

mutual

/-- A check with a memory finds what the check without one finds, whatever searches come out. -/
theorem answers_check (engine : Engine μ) (policy : Policy) :
    ∀ (schema : Schema) (v : Value) (path : String),
      Answers engine policy.search (check engine policy.allowAdditional schema v path)
        (Schema.check policy schema v path)
  | .node decl facets properties items, v, path => by
    have hsingle : ∀ type, Answers engine policy.search
        (check engine policy.allowAdditional (.node (some (.single type)) facets properties items)
          v path)
        (Schema.check policy (.node (some (.single type)) facets properties items) v path) :=
      answers_check_single (answers_checkProperties engine policy properties)
        (answers_checkItems engine policy items)
    rw [check_node, Validation.check_node]
    cases decl with
    | none => exact answers_pure []
    | some decl =>
      cases decl with
      | single type => exact hsingle type
      | union types => exact (answers_tryMembers hsingle types).map (Option.getD · [])

theorem answers_checkProperties (engine : Engine μ) (policy : Policy) :
    ∀ (properties : List (String × Schema)) (members : Members) (path : String),
      Answers engine policy.search
        (checkProperties engine policy.allowAdditional properties members path)
        (Schema.checkProperties policy properties members path)
  | [], _, _ => answers_pure []
  | (name, schema) :: rest, members, path => by
    have hrest := answers_checkProperties engine policy rest members path
    rw [checkProperties, Schema.checkProperties]
    cases Members.find? name members with
    | none => exact (answers_pure _).bind (hrest.map _)
    | some v => exact (answers_check engine policy schema v _).bind (hrest.map _)

theorem answers_checkItems (engine : Engine μ) (policy : Policy) :
    ∀ (items : Items Schema) (values : List Value) (path : String),
      Answers engine policy.search (checkItems engine policy.allowAdditional items values path)
        (Schema.checkItems policy items values path)
  | .free, _, _ => answers_pure []
  | .each schema, values, path => by
    rw [checkItems, Schema.checkItems]
    exact answers_gather fun item _ => answers_check engine policy schema item.1 _
  | .tuple schemas, values, path => answers_checkTuple engine policy schemas values path 0

theorem answers_checkTuple (engine : Engine μ) (policy : Policy) :
    ∀ (schemas : List Schema) (values : List Value) (path : String) (index : Nat),
      Answers engine policy.search
        (checkTuple engine policy.allowAdditional schemas values path index)
        (Schema.checkTuple policy schemas values path index)
  | [], _, _, _ => answers_pure []
  | _ :: _, [], _, _ => answers_pure []
  | schema :: schemas, v :: values, path, index => by
    rw [checkTuple, Schema.checkTuple]
    exact (answers_check engine policy schema v _).bind
      ((answers_checkTuple engine policy schemas values path (index + 1)).map _)

end

end Recall
end Schemata.Validation
