import Schemata.Validation.Check

/-!
# Checking with remembered patterns

What a pattern matches is left to an `Engine`; a pattern that does not compile matches nothing.
The patterns compiled so far are remembered, also those that do not compile.  `Recall.check` finds
what `Schema.check` finds, but meets its patterns one by one: each is looked up when a string comes
to it, and compiled and remembered if it is new, also while a member of a union is tried in vain.
-/

namespace Schemata.Validation

open Json (Members Value)

/-- Compiling patterns, and searching a text for a compiled one. -/
structure Engine (μ : Type) where
  compile : String → Option μ
  search : μ → String → Bool

/-- Patterns with their compiled forms, `none` for those that do not compile. -/
abbrev PatternCache (μ : Type) := List (String × Option μ)

namespace PatternCache

/-- Remembers a pattern. -/
def remember (engine : Engine μ) (cache : PatternCache μ) (pattern : String) : PatternCache μ :=
  match cache.lookup pattern with
  | some _ => cache
  | none => cache ++ [(pattern, engine.compile pattern)]

/-- The search for a pattern in a text, through the remembered forms. -/
def search (engine : Engine μ) (cache : PatternCache μ) (pattern text : String) : Bool :=
  match (cache.lookup pattern).getD (engine.compile pattern) with
  | some compiled => engine.search compiled text
  | none => false

end PatternCache

/-- Work that looks patterns up, and remembers those that it compiles. -/
abbrev Recalling (μ α : Type) := StateM (PatternCache μ) α

namespace Recall

/-- The compiled form of a pattern; a new pattern is compiled and remembered. -/
def compiled (engine : Engine μ) (pattern : String) : Recalling μ (Option μ) := do
  match (← get).lookup pattern with
  | some known => return known
  | none =>
    modify fun cache => cache.remember engine pattern
    return engine.compile pattern

/-- A text has a match of a pattern that compiles. -/
def hasMatch (engine : Engine μ) (pattern text : String) : Recalling μ Bool := do
  match ← compiled engine pattern with
  | some form => return engine.search form text
  | none => return false

/-- The policy under which every search comes out in one way. -/
def settled (allowAdditional found : Bool) : Policy where
  search _ _ := found
  allowAdditional := allowAdditional

/-- The checks of a string, after the search for the pattern of the node. -/
def checkString (engine : Engine μ) (allowAdditional : Bool) (f : Facets) (s path : String) :
    Recalling μ Log := do
  let found ← match f.pattern with
    | none => pure true
    | some pattern => hasMatch engine pattern s
  return f.checkString (settled allowAdditional found) s path

/-- What is found in the elements of a list, in turn. -/
def gather (find : α → Recalling μ Log) : List α → Recalling μ Log
  | [] => pure []
  | a :: rest => do return (← find a) ++ (← gather find rest)

/-- Tries the members of a union in order, until one of them finds nothing. -/
def tryMembers (trial : SchemaType → Recalling μ Log) (path : String) :
    List SchemaType → Recalling μ (Option Log)
  | [] => pure (some [])
  | t :: rest => do
    match ← trial t with
    | [] => return none
    | log => return (← tryMembers trial path rest).map (memberLog t path log ++ ·)

mutual

/-- The violations of a value at a path.  What neither has parts nor may meet a pattern is checked
without a look at the memory. -/
def check (engine : Engine μ) (allowAdditional : Bool) :
    Schema → Value → String → Recalling μ Log
  | .node decl facets properties items, v, path =>
    let asType : SchemaType → Recalling μ Log := fun type =>
      match type, v with
      | .string, .string s => checkString engine allowAdditional facets s path
      | .array, .array values =>
        match facets.itemCount? values.length with
        | some violation => pure [(path, violation)]
        | none => do
          let log ← checkItems engine allowAdditional items values path
          return reportIf (facets.uniqueItems && Value.hasDuplicates values) path .repeatedItems ++
            log
      | .object, .object members => do
        let log ← checkProperties engine allowAdditional properties members path
        return log ++
          facets.checkKeys (settled allowAdditional false) (properties.map (·.1)) members path
      | type, v => pure <|
        Schema.check (settled allowAdditional false) (.node (some (.single type)) facets [] .free)
          v path
    match decl with
    | none => pure []
    | some (.single type) => asType type
    | some (.union types) => do return (← tryMembers asType path types).getD []

/-- Declared properties that are present are checked, and required ones must be present. -/
def checkProperties (engine : Engine μ) (allowAdditional : Bool) :
    List (String × Schema) → Members → String → Recalling μ Log
  | [], _, _ => pure []
  | (name, schema) :: rest, members, path => do
    let log ← match Members.find? name members with
      | some v => check engine allowAdditional schema v (below path name)
      | none => pure (reportIf schema.facets.required (below path name) .undefined)
    return log ++ (← checkProperties engine allowAdditional rest members path)

/-- The items of an array are checked by the one schema for all, or by position. -/
def checkItems (engine : Engine μ) (allowAdditional : Bool) :
    Items Schema → List Value → String → Recalling μ Log
  | .free, _, _ => pure []
  | .each schema, values, path =>
    gather (fun (v, index) => check engine allowAdditional schema v (below path (Nat.repr index)))
      values.zipIdx
  | .tuple schemas, values, path => checkTuple engine allowAdditional schemas values path 0

/-- Items are checked by the schemas at their positions, up to the shorter of the two lists. -/
def checkTuple (engine : Engine μ) (allowAdditional : Bool) :
    List Schema → List Value → String → Nat → Recalling μ Log
  | schema :: schemas, v :: values, path, index => do
    let log ← check engine allowAdditional schema v (below path (Nat.repr index))
    return log ++ (← checkTuple engine allowAdditional schemas values path (index + 1))
  | _, _, _, _ => pure []

end

end Recall
end Schemata.Validation
