import Schemata.Text.Utf8
import Schemata.Json.Fault
import Schemata.Grammar
import Schemata.Pointer

/-!
# Failures of stores and of schemas

A `StoreError` is what a store reports; that a key is absent is no error at that level.  A
`SchemaError` says why no schema can be produced.  An error met while a parent is fetched is
wrapped once for every document on the way, so the innermost error names the culprit.
-/

namespace Schemata

/-- A store cannot read or write a key. -/
inductive StoreError where
  | unreadable (key reason : String)
  | writeRejected (key reason : String)
  deriving DecidableEq, Repr

/-- The wording of a store's error. -/
def StoreError.message : StoreError → String
  | unreadable key reason => "cannot read '" ++ key ++ "': " ++ reason
  | writeRejected key reason => "write to '" ++ key ++ "' rejected: " ++ reason

/-- Why the bytes of a document are no schema. -/
inductive DocumentFault where
  | encoding (fault : Utf8.Fault)
  | json (fault : Json.Fault)
  | notObject
  deriving DecidableEq, Repr

/-- The wording of a document's fault. -/
def DocumentFault.message : DocumentFault → String
  | encoding fault => fault.message
  | json fault => fault.message
  | notObject => "schema document must be a JSON object"

/-- What is wrong with a key of a schema node. -/
inductive PropertyFault where
  | notAllowed (decl : TypeDecl)
  | extendsShape
  | propertiesShape
  | childShape
  | itemShape
  | itemsShape
  deriving DecidableEq, Repr

/-- The wording of a key's fault. -/
def PropertyFault.message : PropertyFault → String
  | notAllowed (.single t) => "is not allowed for type '" ++ t.name ++ "'"
  | notAllowed (.union ts) =>
    "is not allowed for any of types '" ++ (TypeDecl.union ts).text ++ "'"
  | extendsShape => "must be a string or a list of strings"
  | propertiesShape => "must be an object mapping names to schemas"
  | childShape => "must be a schema object"
  | itemShape => "must hold only schema objects"
  | itemsShape => "must be a schema object or a list of schema objects"

/-- Why a schema cannot be produced. -/
inductive SchemaError where
  | notFound (name : String)
  | unparsable (name : String) (fault : DocumentFault)
  | invalidType (typeName : String) (location : Pointer)
  | invalidProperty (property : String) (fault : PropertyFault) (location : Pointer)
  | brokenExtend (reference : String) (source : SchemaError)
  | cyclicExtend (chain : List String)
  | brokenCache (name key : String)
  | cacheWrite (name key : String) (source : StoreError)
  | store (source : StoreError)
  deriving DecidableEq, Repr

namespace SchemaError

/-- The wording of an error; a wrapped error is told behind its wrapper. -/
def message : SchemaError → String
  | notFound name => "schema '" ++ name ++ "' not found"
  | unparsable name fault =>
    "unable to decode schema '" ++ name ++ "' as JSON: " ++ fault.message
  | invalidType typeName location =>
    "property type '" ++ typeName ++ "' is not allowed (at " ++ location.text ++ ")"
  | invalidProperty property fault location =>
    "property '" ++ property ++ "' " ++ fault.message ++ " (at " ++ location.text ++ ")"
  | brokenExtend reference source => "cannot extend '" ++ reference ++ "': " ++ source.message
  | cyclicExtend chain => "cyclic extends: " ++ String.intercalate " -> " chain
  | brokenCache name key => "broken cache for schema '" ++ name ++ "', cache key '" ++ key ++ "'"
  | cacheWrite name key source =>
    "unable to write schema '" ++ name ++ "' to cache '" ++ key ++ "': " ++ source.message
  | store source => "schema store error: " ++ source.message

/-- The fault lies in the schema documents, not in a cache or a store. -/
def isInvalidSchema : SchemaError → Bool
  | notFound _ => true
  | unparsable _ _ => true
  | invalidType _ _ => true
  | invalidProperty _ _ _ => true
  | cyclicExtend _ => true
  | brokenExtend _ source => source.isInvalidSchema
  | brokenCache _ _ => false
  | cacheWrite _ _ _ => false
  | store _ => false

/-- The errors inside the wrappers, outermost first. -/
def sources : SchemaError → List SchemaError
  | brokenExtend _ source => source :: source.sources
  | _ => []

/-- The error as seen by a document that extends the reference: a cycle is told as it is. -/
def through (reference : String) : SchemaError → SchemaError
  | cyclicExtend chain => cyclicExtend chain
  | e => brokenExtend reference e

end SchemaError
end Schemata
