import Schemata.Proofs.Validation.Validator

/-!
# Sharing a validator

A validator may be called again and again, and remembers patterns from one call to the next.  Its
replies depend on its memory only through the searches that come out of it, which no call changes;
so it replies to each call as a fresh one does.  Meanwhile the memory grows, by patterns with what
they compile to.
-/

namespace Schemata.Validation.Validator

open Json (Value)

variable {μ : Type}

/-- A call on a validator. -/
inductive Call where
  | validate (instanceText schemaText : String)
  | validateValue (instanceValue schema : Value)
  | check (instanceValue schema : Value) (path : String) (errors : Errors)

/-- What a call is answered with. -/
inductive Reply where
  | outcome (result : Except SchemaError Report)
  | report (report : Report)
  | errors (errors : Errors)

/-- The reply to a call, and the validator after it. -/
def reply (v : Validator μ) : Call → Reply × Validator μ
  | .validate instanceText schemaText => (v.validate instanceText schemaText).map .outcome id
  | .validateValue instanceValue schema => (v.validateValue instanceValue schema).map .report id
  | .check instanceValue schema path errors =>
    (v.check instanceValue schema path errors).map .errors id

/-- The replies to calls made in turn. -/
def replies (v : Validator μ) : List Call → List Reply
  | [] => []
  | call :: rest => (v.reply call).1 :: (v.reply call).2.replies rest

/-- The validator after calls made in turn. -/
def after (v : Validator μ) (calls : List Call) : Validator μ :=
  calls.foldl (fun v call => (v.reply call).2) v

/-! ## One call -/

section Calls

variable (v : Validator μ)

theorem exists_check_patterns (instanceValue schema : Value) (path : String) (errors : Errors) :
    ∃ patterns, (v.check instanceValue schema path errors).2 =
      { v with patterns := v.patterns.rememberAll v.engine patterns } := by
  obtain ⟨patterns, hcheck⟩ := v.exists_check_eq instanceValue schema path errors
  exact ⟨patterns, congrArg Prod.snd hcheck⟩

theorem exists_validate_patterns (instanceText schemaText : String) :
    ∃ patterns, (v.validate instanceText schemaText).2 =
      { v with patterns := v.patterns.rememberAll v.engine patterns } := by
  unfold validate
  split
  · exact ⟨[], rfl⟩
  next members _ =>
    split
    · exact ⟨[], rfl⟩
    next value _ => exact v.exists_check_patterns value (.object members) "$" .empty

/-- A call changes nothing of a validator but its memory, and that grows. -/
theorem exists_reply_patterns (call : Call) :
    ∃ patterns, (v.reply call).2 =
      { v with patterns := v.patterns.rememberAll v.engine patterns } := by
  cases call with
  | check instanceValue schema path errors =>
    exact v.exists_check_patterns instanceValue schema path errors
  | validateValue instanceValue schema =>
    exact v.exists_check_patterns instanceValue schema "$" .empty
  | validate instanceText schemaText => exact v.exists_validate_patterns instanceText schemaText

theorem policy_reply (call : Call) : (v.reply call).2.policy = v.policy := by
  obtain ⟨patterns, hreply⟩ := v.exists_reply_patterns call
  rw [hreply, policy, policy, PatternCache.search_rememberAll]

theorem engine_reply (call : Call) : (v.reply call).2.engine = v.engine := by
  obtain ⟨patterns, hreply⟩ := v.exists_reply_patterns call
  rw [hreply]

theorem prefix_reply (call : Call) : v.patterns <+: (v.reply call).2.patterns := by
  obtain ⟨patterns, hreply⟩ := v.exists_reply_patterns call
  rw [hreply]
  exact PatternCache.prefix_rememberAll v.engine v.patterns patterns

theorem faithful_reply (h : v.patterns.Faithful v.engine) (call : Call) :
    (v.reply call).2.patterns.Faithful v.engine := by
  obtain ⟨patterns, hreply⟩ := v.exists_reply_patterns call
  rw [hreply]
  exact h.rememberAll patterns

end Calls

section Congr

variable {v w : Validator μ} (h : w.policy = v.policy)

include h

theorem validate_congr (instanceText schemaText : String) :
    (v.validate instanceText schemaText).1 = (w.validate instanceText schemaText).1 := by
  unfold validate
  split
  · rfl
  · split
    · rfl
    · dsimp only
      rw [validateValue_congr h]

/-- Validators with one policy reply alike. -/
theorem reply_congr (call : Call) : (v.reply call).1 = (w.reply call).1 := by
  cases call with
  | check instanceValue schema path errors =>
    exact congrArg Reply.errors (check_congr_policy h instanceValue schema path errors)
  | validateValue instanceValue schema =>
    exact congrArg Reply.report (validateValue_congr h instanceValue schema)
  | validate instanceText schemaText =>
    exact congrArg Reply.outcome (validate_congr h instanceText schemaText)

end Congr

/-! ## Calls in turn -/

theorem after_concat (v : Validator μ) (earlier : List Call) (call : Call) :
    v.after (earlier ++ [call]) = ((v.after earlier).reply call).2 := by
  rw [after, List.foldl_append]
  rfl

/-- Calls in turn are replied to as each would be by itself. -/
theorem replies_eq_map {v w : Validator μ} (h : w.policy = v.policy) (calls : List Call) :
    w.replies calls = calls.map fun call => (v.reply call).1 := by
  induction calls generalizing w with
  | nil => rfl
  | cons call rest ih =>
    rw [replies, List.map_cons, ← reply_congr h, ih ((w.policy_reply call).trans h)]

theorem faithful_after {v : Validator μ} (h : v.patterns.Faithful v.engine) (calls : List Call) :
    (v.after calls).patterns.Faithful v.engine := by
  induction calls generalizing v with
  | nil => exact h
  | cons call rest ih =>
    have hfaithful := v.faithful_reply h call
    rw [← v.engine_reply call] at hfaithful ⊢
    exact ih hfaithful

/-- Whatever calls are made on one validator, each is answered as a fresh validator answers it
alone.  Each call leaves the memory of patterns as it was and adds to it, and whatever is remembered
is held with what it compiles to. -/
theorem shared_replies_as_fresh (engine : Engine μ) (allowAdditional : Bool) (calls : List Call) :
    let v := fresh engine allowAdditional
    v.replies calls = calls.map (fun call => (v.reply call).1) ∧
    ∀ earlier call later, calls = earlier ++ call :: later →
      (v.after earlier).patterns <+: (v.after (earlier ++ [call])).patterns ∧
      ∀ entry ∈ (v.after (earlier ++ [call])).patterns, entry.2 = engine.compile entry.1 := by
  intro v
  refine ⟨replies_eq_map rfl calls, fun earlier call later _ => ⟨?_, ?_⟩⟩
  · rw [after_concat]
    exact (v.after earlier).prefix_reply call
  · have hfresh : v.patterns.Faithful v.engine := by simp [v, fresh, PatternCache.Faithful]
    exact faithful_after hfresh (earlier ++ [call])

end Schemata.Validation.Validator
