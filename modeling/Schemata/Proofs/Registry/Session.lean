import Schemata.Proofs.Registry.Cached

/-!
# Sessions

A session is a sequence of calls on one registry, whose cache in memory is empty at first.  After
every call the cache is sound and holds what it held before; what is asked through the cache is
answered as it is without.

That takes keys which tell the names in use apart.  In use are the normal names that calls ask
for, those that inline documents refer to, and all names that these lead to.
-/

namespace Schemata
namespace Session

open Build (Ends)
open Json (Members Value)
open Registry

/-- What may be asked of the registry. -/
inductive Call where
  | getSchema (name : String)
  | getSchemaValue (name : String)
  | getSchemaUncached (name : String)
  | buildText (text directory : String)
  | setCaching (on : Bool)

/-- What a call answers. -/
inductive Reply where
  | text (text : String)
  | value (v : Value)
  | done

/-- The call is made while caching is on or off. -/
def perform (session : Session) (caching : Bool) (levels : Nat) : Call → Build MemoryStore Reply
  | .getSchema name => Reply.text <$> (session.registry caching).getSchema levels name
  | .getSchemaValue name => Reply.value <$> (session.registry caching).getSchemaValue levels name
  | .getSchemaUncached name =>
    Reply.text <$> (session.registry caching).getSchemaUncached levels name
  | .buildText text directory =>
    Reply.text <$> (session.registry caching).buildText levels text directory
  | .setCaching _ => pure .done

/-- Whether caching is on after the call. -/
def Call.switch : Call → Bool → Bool
  | .setCaching on, _ => on
  | _, caching => caching

/-- The calls are made one after the other, and leave caching on or off and the cache in a state.
Calls may fail. -/
inductive Run (session : Session) : List Call → Bool → MemoryStore → Prop
  | start (caching : Bool) : Run session [] caching MemoryStore.empty
  | call {calls : List Call} {caching : Bool} {levels : Nat} {call : Call} {m m' : MemoryStore}
      {result : Except SchemaError Reply} : Run session calls caching m →
        Ends (session.perform caching levels call) m result m' →
          Run session (calls ++ [call]) (call.switch caching) m'

/-! ## Names in use -/

/-- The call names a document itself. -/
def Call.Names (session : Session) : Call → String → Prop
  | .getSchema name, other => other = Name.normalize name
  | .getSchemaValue name, other => other = Name.normalize name
  | .getSchemaUncached name, other => other = Name.normalize name
  | .buildText text directory, other => ∃ document reference,
      parseDocument inlineName text = .ok document ∧ Node.Mentions document reference ∧
        other = session.plain.target directory reference
  | .setCaching _, _ => False

/-- A call names it, or a name in use refers to it. -/
inductive InUse (session : Session) (calls : List Call) : String → Prop
  | named {call : Call} {name : String} : call ∈ calls → call.Names session name →
      InUse session calls name
  | referred {name other : String} : InUse session calls name →
      session.plain.Refers () name other → InUse session calls other

/-- No two names in use have the same key. -/
def KeysApart (session : Session) (calls : List Call) : Prop :=
  ∀ name other, session.InUse calls name → session.InUse calls other →
    cacheKey name = cacheKey other → name = other

variable {session : Session} {caching : Bool} {levels : Nat} {calls more : List Call} {call : Call}
  {m m' : MemoryStore} {name : String}

theorem InUse.mono (hsub : calls ⊆ more) (h : session.InUse calls name) :
    session.InUse more name := by
  induction h with
  | named hmem hnames => exact .named (hsub hmem) hnames
  | referred _ hrefers ih => exact .referred ih hrefers

/-- What a named document leads to is in use. -/
theorem inUse_of_reaches {other : String}
    (h : Relation.ReflTransGen (session.plain.Refers ()) (Name.normalize name) other) :
    session.InUse [.getSchema name] other := by
  induction h with
  | refl => exact .named (List.mem_singleton_self _) rfl
  | tail _ hrefers ih => exact .referred ih hrefers

theorem KeysApart.mono (hsub : calls ⊆ more) (h : session.KeysApart more) :
    session.KeysApart calls :=
  fun name other hname hother => h name other (hname.mono hsub) (hother.mono hsub)

theorem sound_mono (hsub : calls ⊆ more) (h : (session.sound (session.InUse calls)).Holds m) :
    (session.sound (session.InUse more)).Holds m := by
  refine ⟨h.1, fun entry hentry => ?_⟩
  obtain ⟨name, text, hname, hrest⟩ := h.2 entry hentry
  exact ⟨name, text, hname.mono hsub, hrest⟩

/-! ## One call -/

section OneCall

variable (hapart : session.KeysApart calls)

include hapart in
/-- Whether through the cache or not, a fetch follows the fetch without a cache. -/
theorem following_fetch_of_inUse (cached : Bool) (hnormal : Name.normalize name = name)
    (hname : session.InUse calls name) :
    (Simulation.following (session.sound (session.InUse calls))
      SchemaError.IsBrokenCache ()).Relates
      BuiltText ((session.registry caching).fetch cached levels [] name)
      fun i => session.plain.fetch false i [] name := by
  cases cached with
  | true =>
    exact following_cached hapart (fun _ _ => InUse.referred) levels hnormal hname (by simp)
  | false =>
    intro m hm result m' h
    obtain ⟨rfl, -, hok, herror⟩ := following_fetch sameSource levels [] name m rfl result m' h
    exact ⟨hm, StateInvariant.refl _ _, hok, fun e he => Or.inr ((herror e he).resolve_left id)⟩

include hapart in
theorem sound_fetch {cached : Bool} (hname : session.InUse calls (Name.normalize name))
    (hm : (session.sound (session.InUse calls)).Holds m) {result : Except SchemaError String}
    (h : Ends ((session.registry caching).fetch cached levels [] name) m result m') :
    (session.sound (session.InUse calls)).Holds m' ∧
      (session.sound (session.InUse calls)).Later m m' := by
  rw [← fetch_normalize] at h
  obtain ⟨hm', hlater, -⟩ :=
    following_fetch_of_inUse hapart cached (Name.normalize_normalize name) hname m hm _ _ h
  exact ⟨hm', hlater⟩

include hapart in
/-- An inline document is built from parents that are in use. -/
theorem sound_buildText {text directory : String} (hcall : .buildText text directory ∈ calls)
    (hm : (session.sound (session.InUse calls)).Holds m) {result : Except SchemaError String}
    (h : Ends ((session.registry caching).buildText levels text directory) m result m') :
    (session.sound (session.InUse calls)).Holds m' ∧
      (session.sound (session.InUse calls)).Later m m' := by
  rcases ends_buildText.mp h with ⟨e, -, -, rfl⟩ | ⟨document, hparse, hbuild⟩
  · exact ⟨hm, StateInvariant.refl _ _⟩
  · have hfollow : (Simulation.following (session.sound (session.InUse calls))
        SchemaError.IsBrokenCache ()).Relates BuiltText
          (buildDocument ((session.registry caching).parent ((session.registry caching).fetch
            (session.registry caching).usesCache levels) [] directory) levels document)
          fun i => buildDocument (session.plain.parent (session.plain.fetch false i) [] directory) i
            document := by
      refine following_buildDocument (unique_of_parseDocument hparse) fun reference hmentions => ?_
      refine following_parent rfl (fun reference e he => he.through reference)
        (fun _ => Or.inr rfl) id fun _ => ?_
      have hnames : (Call.buildText text directory).Names session
          (session.plain.target directory reference) :=
        ⟨document, reference, hparse, hmentions, rfl⟩
      exact following_fetch_of_inUse hapart _ normalize_target (.named hcall hnames)
    obtain ⟨hm', hlater, -⟩ := hfollow m hm _ _ hbuild
    exact ⟨hm', hlater⟩

include hapart in
/-- A call keeps the cache sound and only adds to it. -/
theorem sound_perform (hcall : call ∈ calls)
    (hm : (session.sound (session.InUse calls)).Holds m) {result : Except SchemaError Reply}
    (h : Ends (session.perform caching levels call) m result m') :
    (session.sound (session.InUse calls)).Holds m' ∧
      (session.sound (session.InUse calls)).Later m m' := by
  cases call with
  | getSchema name =>
    obtain ⟨answer, hanswer, -⟩ := Build.exists_ends_of_map h
    exact sound_fetch hapart (.named hcall rfl) hm hanswer
  | getSchemaValue name =>
    obtain ⟨answer, hanswer, -⟩ := Build.exists_ends_of_map h
    rcases Build.ends_bind.mp hanswer with ⟨text, u, htext, hparse⟩ | ⟨e, he, -⟩
    · have hstate : m' = u := by
        rcases Build.ends_bind.mp hparse with ⟨members, u', hmembers, hpure⟩ | ⟨e, he, -⟩
        · rw [(Build.ends_pure.mp hpure).2, (Build.ends_ofExcept.mp hmembers).2]
        · exact (Build.ends_ofExcept.mp he).2
      rw [hstate]
      exact sound_fetch hapart (.named hcall rfl) hm htext
    · exact sound_fetch hapart (.named hcall rfl) hm he
  | getSchemaUncached name =>
    obtain ⟨answer, hanswer, -⟩ := Build.exists_ends_of_map h
    exact sound_fetch hapart (.named hcall rfl) hm hanswer
  | buildText text directory =>
    obtain ⟨answer, hanswer, -⟩ := Build.exists_ends_of_map h
    exact sound_buildText hapart hcall hm hanswer
  | setCaching on =>
    obtain ⟨-, rfl⟩ := Build.ends_pure.mp h
    exact ⟨hm, StateInvariant.refl _ _⟩

include hapart in
/-- What is asked of a name is answered as without a cache, or an entry cannot be read back. -/
theorem broken_or_uncached {cached : Bool} (hname : session.InUse calls (Name.normalize name))
    (hm : (session.sound (session.InUse calls)).Holds m) {result : Except SchemaError String}
    (h : Ends ((session.registry caching).fetch cached levels [] name) m result m') :
    (∃ e, result = .error e ∧ e.IsBrokenCache) ∨ session.Uncached name result := by
  rw [← fetch_normalize] at h
  obtain ⟨-, -, hok, herror⟩ :=
    following_fetch_of_inUse hapart cached (Name.normalize_normalize name) hname m hm _ _ h
  cases result with
  | ok text => exact Or.inr (answers_normalize_iff.mp (hok text rfl).2)
  | error e =>
    rcases herror e rfl with hbroken | hanswers
    · exact Or.inl ⟨e, rfl, hbroken⟩
    · exact Or.inr (answers_normalize_iff.mp hanswers)

end OneCall

/-! ## Runs -/

theorem Run.sound (h : session.Run calls caching m) (hapart : session.KeysApart calls) :
    (session.sound (session.InUse calls)).Holds m := by
  induction h with
  | start => exact ⟨rfl, by simp [MemoryStore.empty]⟩
  | @call calls caching levels call m m' result hrun hends ih =>
    have hsub : calls ⊆ calls ++ [call] := List.subset_append_left _ _
    have hcall : call ∈ calls ++ [call] := List.mem_append_right _ (List.mem_singleton_self _)
    exact (sound_perform hapart hcall (sound_mono hsub (ih (hapart.mono hsub))) hends).1

/-- After every call of every run, each entry is the uncached text of the name of its key, all
earlier entries are there unchanged, and what was asked through the cache was answered as it is
without, unless an entry could not be read back. -/
theorem cache_sound_after_call {result : Except SchemaError Reply}
    (hrun : session.Run calls caching m)
    (hends : Ends (session.perform caching levels call) m result m')
    (hapart : session.KeysApart (calls ++ [call])) :
    (∀ key bytes, (key, bytes) ∈ m'.entries → ∃ name text, Name.normalize name = name ∧
      key = cacheKey name ∧ bytes = text.toUTF8 ∧ session.Uncached name (.ok text)) ∧
    m.entries <+: m'.entries ∧
    (∀ name, call = .getSchemaUncached name →
      ∃ answer, session.Uncached name answer ∧ result = answer.map .text) ∧
    ∀ name, call = .getSchema name → (∃ e, result = .error e ∧ e.IsBrokenCache) ∨
      ∃ answer, session.Uncached name answer ∧ result = answer.map .text := by
  have hsub : calls ⊆ calls ++ [call] := List.subset_append_left _ _
  have hcall : call ∈ calls ++ [call] := List.mem_append_right _ (List.mem_singleton_self _)
  have hm : (session.sound (session.InUse (calls ++ [call]))).Holds m :=
    sound_mono hsub (hrun.sound (hapart.mono hsub))
  obtain ⟨hm', hlater⟩ := sound_perform hapart hcall hm hends
  refine ⟨?_, hlater, ?_, ?_⟩
  · intro key bytes hentry
    obtain ⟨name, text, -, hnormal, hanswers, heq⟩ := hm'.2 _ hentry
    rw [Prod.mk.injEq] at heq
    exact ⟨name, text, hnormal, heq.1, heq.2, hanswers⟩
  · rintro name rfl
    obtain ⟨answer, hanswer, rfl⟩ := Build.exists_ends_of_map hends
    exact ⟨answer, answers_of_ends sameSource hanswer, rfl⟩
  · rintro name rfl
    obtain ⟨answer, hanswer, rfl⟩ := Build.exists_ends_of_map hends
    rcases broken_or_uncached hapart (.named hcall rfl) hm hanswer with
      ⟨e, rfl, hbroken⟩ | huncached
    · exact Or.inl ⟨e, rfl, hbroken⟩
    · exact Or.inr ⟨answer, huncached, rfl⟩

/-- Calls for a document that only leads to one other need two keys. -/
theorem keysApart_of_pair (hcalls : ∀ call ∈ calls, call = .getSchema "a")
    (hrefers : ∀ name other, name = "a" ∨ name = "b" →
      session.plain.Refers () name other → other = "b") :
    session.KeysApart calls := by
  have hnames : ∀ name, session.InUse calls name → name = "a" ∨ name = "b" := by
    intro name h
    induction h with
    | @named call name hmem hnames =>
      rw [hcalls call hmem] at hnames
      obtain rfl : name = Name.normalize "a" := hnames
      exact Or.inl (by decide +kernel)
    | referred _ hstep ih => exact Or.inr (hrefers _ _ ih hstep)
  have hkeys : cacheKey "a" ≠ cacheKey "b" := by decide +kernel
  intro name other hname hother heq
  rcases hnames name hname with rfl | rfl <;> rcases hnames other hother with rfl | rfl
  · rfl
  · exact absurd heq hkeys
  · exact absurd heq.symm hkeys
  · rfl

/-- Two documents, of which the first extends the second. -/
def family : Session :=
  ⟨lookupText [("a", "\x7b\"extends\":\"b\"\x7d"), ("b", "\x7b\"type\":\"string\"\x7d")], relative⟩

theorem family_refers {name other : String} (hname : name = "a" ∨ name = "b")
    (h : family.plain.Refers () name other) : other = "b" := by
  have ha : family.plain.document? () "a" = some [("extends", .string "b")] := by decide +kernel
  have hb : family.plain.document? () "b" = some [("type", .string "string")] := by decide +kernel
  obtain ⟨document, hdocument, reference, hmentions, rfl⟩ := h
  rcases hname with rfl | rfl
  · rw [ha, Option.some.injEq] at hdocument
    subst hdocument
    rw [Node.mentions_iff_of_leaf rfl rfl] at hmentions
    obtain rfl : reference = "b" := List.mem_singleton.mp hmentions
    decide
  · rw [hb, Option.some.injEq] at hdocument
    subst hdocument
    rw [Node.mentions_iff_of_leaf rfl rfl] at hmentions
    exact absurd hmentions List.not_mem_nil

theorem family_reaches {other : String}
    (h : Relation.ReflTransGen (family.plain.Refers ()) "a" other) : other = "a" ∨ other = "b" := by
  induction h with
  | refl => exact Or.inl rfl
  | tail _ hrefers ih => exact Or.inr (family_refers ih hrefers)

theorem ends_family :
    Ends (family.plain.getSchemaUncached 4 "a") () (.ok "\x7b\"type\":\"string\"\x7d") () := by
  unfold Ends
  decide +kernel

theorem keysApart_family : family.KeysApart [.getSchema "a", .getSchema "a"] :=
  keysApart_of_pair (by simp) fun _ _ => family_refers

/-- The second call for a name finds what the first one kept. -/
theorem exists_ends_family :
    ∃ m m', Ends ((family.registry true).getSchema 4 "a") MemoryStore.empty
        (.ok "\x7b\"type\":\"string\"\x7d") m ∧
      Ends ((family.registry true).getSchema 1 "a") m
        (.ok "\x7b\"type\":\"string\"\x7d") m' := by
  have hfirst : (StateT.run (ExceptT.run ((family.registry true).getSchema 4 "a"))
      MemoryStore.empty).map Prod.fst = some (.ok "\x7b\"type\":\"string\"\x7d") := by
    decide +kernel
  have hsecond : (StateT.run (ExceptT.run ((family.registry true).getSchema 4 "a"))
      MemoryStore.empty).bind (fun p => (StateT.run (ExceptT.run
        ((family.registry true).getSchema 1 "a")) p.2).map Prod.fst) =
          some (.ok "\x7b\"type\":\"string\"\x7d") := by
    decide +kernel
  obtain ⟨⟨result, m⟩, hm, rfl⟩ := Option.map_eq_some_iff.mp hfirst
  rw [hm, Option.bind_some] at hsecond
  obtain ⟨⟨result', m'⟩, hm', rfl⟩ := Option.map_eq_some_iff.mp hsecond
  exact ⟨m, m', hm, hm'⟩

theorem family_stays_sound :
    ∃ m m', family.Run [.getSchema "a"] true m ∧
      Ends (family.perform true 1 (.getSchema "a")) m
        (.ok (.text "\x7b\"type\":\"string\"\x7d")) m' ∧
      family.KeysApart [.getSchema "a", .getSchema "a"] ∧
      (∀ key bytes, (key, bytes) ∈ m'.entries → ∃ name text, Name.normalize name = name ∧
        key = cacheKey name ∧ bytes = text.toUTF8 ∧ family.Uncached name (.ok text)) ∧
      m.entries <+: m'.entries ∧
      family.Uncached "a" (.ok "\x7b\"type\":\"string\"\x7d") := by
  obtain ⟨m, m', hfirst, hsecond⟩ := exists_ends_family
  have hrun : family.Run [.getSchema "a"] true m :=
    .call (.start true) (Build.ends_map.mpr (Or.inl ⟨_, hfirst, rfl⟩))
  have hends : Ends (family.perform true 1 (.getSchema "a")) m
      (.ok (.text "\x7b\"type\":\"string\"\x7d")) m' :=
    Build.ends_map.mpr (Or.inl ⟨_, hsecond, rfl⟩)
  obtain ⟨hsound, hkept, -, hanswer⟩ := cache_sound_after_call hrun hends keysApart_family
  refine ⟨m, m', hrun, hends, keysApart_family, hsound, hkept, ?_⟩
  rcases hanswer "a" rfl with ⟨e, he, -⟩ | ⟨answer, huncached, hsame⟩
  · simp at he
  · cases answer with
    | error e => simp [Except.map] at hsame
    | ok text =>
      simp only [Except.map, Except.ok.injEq, Reply.text.injEq] at hsame
      exact hsame ▸ huncached

end Session
end Schemata
