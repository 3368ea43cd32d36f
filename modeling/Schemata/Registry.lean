import Schemata.Building
import Schemata.CacheKey
import Schemata.Json.Reader
import Schemata.Name
import Schemata.Store.Basic

/-!
# The registry

A registry provides schema documents by logical name, raw or built.  A built schema can be kept in
a cache store under the key of its normal name; a cached text is answered as it is, provided that
it is JSON at all.

While a document is built, the names under construction are carried along as a chain, and a
reference back into the chain fails instead of being followed.  References that lead on to ever
new documents are followed as deep as the budget of levels admits; `Build` keeps an exhausted
budget apart from every error.
-/

namespace Schemata

open Json (Members Value)

/-- Where documents are read, where built schemas are cached, and how references are resolved. -/
structure Registry (σ : Type) where
  documents : σ → String → Lookup
  cache : Option (Store σ)
  resolve : String → String → String
  caching : Bool

/-- The object that a document's text must hold. -/
def parseDocument (name text : String) : Except SchemaError Members :=
  match Value.read text with
  | .ok (.object members) => .ok members
  | .ok _ => .error (.unparsable name .notObject)
  | .error fault => .error (.unparsable name (.json fault))

/-- The name under which documents without a name are reported. -/
def inlineName : String := "<inline>"

namespace Registry

/-- The default resolution: a reference is relative to the directory of its document. -/
def relative (reference directory : String) : String :=
  Name.join directory reference

/-- A registry on a source of documents, with neither cache nor special resolution. -/
def ofDocuments (documents : σ → String → Lookup) : Registry σ :=
  ⟨documents, none, relative, false⟩

/-- Attaches a cache and turns caching on. -/
def withCache (r : Registry σ) (cache : Store σ) : Registry σ :=
  { r with cache := some cache, caching := true }

/-- Built schemas are looked up in the cache and kept there. -/
def usesCache (r : Registry σ) : Bool :=
  r.caching && r.cache.isSome

/-- The stored bytes of a document. -/
def load (r : Registry σ) (name : String) : Build σ (Option ByteArray) := do
  let state ← get
  match r.documents state name with
  | .ok bytes => return bytes
  | .error e => throw (.store e)

/-- The text and the members of a stored document. -/
def loadDocument (r : Registry σ) (name : String) : Build σ (String × Members) := do
  match ← r.load name with
  | none => throw (.notFound name)
  | some bytes =>
    match Utf8.decode bytes with
    | .error fault => throw (.unparsable name (.encoding fault))
    | .ok text =>
      let members ← Build.ofExcept (parseDocument name text)
      return (text, members)

/-- The cached text of a built schema, which must be JSON. -/
def readCache (r : Registry σ) (name : String) : Build σ (Option String) := do
  match r.cache with
  | none => return none
  | some cache =>
    let state ← get
    match cache.get state (cacheKey name) with
    | .error e => throw (.store e)
    | .ok none => return none
    | .ok (some bytes) =>
      match Utf8.decode bytes with
      | .error _ => throw (.brokenCache name (cacheKey name))
      | .ok text =>
        match Value.read text with
        | .ok _ => return some text
        | .error _ => throw (.brokenCache name (cacheKey name))

/-- Keeps the text of a built schema. -/
def writeCache (r : Registry σ) (name text : String) : Build σ Unit := do
  match r.cache with
  | none => return
  | some cache =>
    let (answer, state) := cache.put (← get) (cacheKey name) text.toUTF8
    set state
    match answer with
    | .ok () => return
    | .error e => throw (.cacheWrite name (cacheKey name) e)

/-- The members of the parent that a reference names, for a document in a directory with a chain
of names under construction. -/
def parent (r : Registry σ) (fetch : List String → String → Build σ String)
    (chain : List String) (directory reference : String) : Build σ Members :=
  let name := Name.normalize (r.resolve reference directory)
  if chain.contains name then throw (.cyclicExtend (chain ++ [name]))
  else
    Build.mapError (SchemaError.through name) do
      let text ← fetch chain name
      Build.ofExcept (parseDocument name text)

/-- The text of a built schema, fetched while the names of a chain are under construction. -/
def fetch (r : Registry σ) (cached : Bool) : Nat → List String → String → Build σ String
  | 0, _, _ => Build.unfinished
  | levels + 1, chain, name => do
    let name := Name.normalize name
    match ← (if cached then r.readCache name else pure none) with
    | some text => return text
    | none =>
      let (_, document) ← r.loadDocument name
      let parent := r.parent (fetch r cached levels) (chain ++ [name]) (Name.directory name)
      let built ← Building.buildNode parent levels [] document
      let text := (Value.object built).compact
      if cached then r.writeCache name text
      return text

/-- The built schema of a name, through the cache if the registry uses one. -/
def getSchema (r : Registry σ) (levels : Nat) (name : String) : Build σ String :=
  r.fetch r.usesCache levels [] name

/-- The built schema of a name, built anew. -/
def getSchemaUncached (r : Registry σ) (levels : Nat) (name : String) : Build σ String :=
  r.fetch false levels [] name

/-- The members of the built schema of a name. -/
def getSchemaValue (r : Registry σ) (levels : Nat) (name : String) : Build σ Value := do
  let text ← r.getSchema levels name
  let members ← Build.ofExcept (parseDocument (Name.normalize name) text)
  return .object members

/-- The stored text of a document, which must be a JSON object. -/
def getRawSchema (r : Registry σ) (name : String) : Build σ String := do
  let (text, _) ← r.loadDocument (Name.normalize name)
  return text

/-- Enough levels for a number of documents and of cached texts, as long as no cached text leads
back to itself: each name is fetched once on a chain, and neither a document nor a cached text is
nested deeper than JSON text may be. -/
def levelsFor (documents cached : Nat) : Nat :=
  (2 * Json.depthLimit) * (documents + cached + 4)

/-- Builds a schema tree that belongs to a directory. -/
def buildTree (r : Registry σ) (levels : Nat) (directory : String) : Value → Build σ Value
  | .object node => do
    let parent := r.parent (r.fetch r.usesCache levels) [] directory
    let built ← Building.buildNode parent levels [] node
    return .object built
  | _ => throw (.unparsable inlineName .notObject)

/-- Builds a schema text that belongs to a directory. -/
def buildText (r : Registry σ) (levels : Nat) (text directory : String) : Build σ String := do
  let members ← Build.ofExcept (parseDocument inlineName text)
  let built ← r.buildTree levels directory (.object members)
  return built.compact

end Registry
end Schemata
