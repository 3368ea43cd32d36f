import Schemata.Json.Printer
import Schemata.Json.Reader

/-!
# Collections of validation messages

Messages are grouped by the path they were reported at.  The paths are kept in the order of their
code points, the messages of one path in the order in which they came.
-/

namespace Schemata.Validation

/-- Messages by path, with the paths in ascending order. -/
structure Errors where
  entries : List (String × List String)
  deriving DecidableEq, Repr

namespace Errors

/-- Nothing was reported. -/
def empty : Errors := ⟨[]⟩

/-- Puts the message behind those of its path, or starts the path at its place in the order. -/
def insertMessage (path message : String) :
    List (String × List String) → List (String × List String)
  | [] => [(path, [message])]
  | (p, messages) :: rest =>
    if p = path then (p, messages ++ [message]) :: rest
    else if path < p then (path, [message]) :: (p, messages) :: rest
    else (p, messages) :: insertMessage path message rest

/-- Reports one more message at a path. -/
def add (e : Errors) (path message : String) : Errors :=
  ⟨insertMessage path message e.entries⟩

/-- Reports messages in turn. -/
def addAll (e : Errors) (log : List (String × String)) : Errors :=
  log.foldl (fun done (path, message) => done.add path message) e

/-- The messages of a path. -/
def find? (e : Errors) (path : String) : Option (List String) :=
  e.entries.lookup path

/-- No path is present. -/
def isEmpty (e : Errors) : Bool :=
  e.entries.isEmpty

/-- The number of paths. -/
def size (e : Errors) : Nat :=
  e.entries.length

/-- The number of messages at all paths together. -/
def messageCount (e : Errors) : Nat :=
  e.entries.foldl (fun n (_, messages) => n + messages.length) 0

/-- The paths in order. -/
def paths (e : Errors) : List String :=
  e.entries.map (·.1)

/-- Every message with its path. -/
def toList (e : Errors) : List (String × String) :=
  e.entries.flatMap fun (path, messages) => messages.map fun message => (path, message)

/-- One line for every message. -/
def text (e : Errors) : String :=
  String.intercalate "\n" (e.toList.map fun (path, message) => "  " ++ path ++ ": " ++ message)

/-- An object of lists of strings. -/
def toValue (e : Errors) : Json.Value :=
  .object (e.entries.map fun (path, messages) =>
    (path, .array (messages.map .string)))

/-- Puts the messages of a path in place of those it has. -/
def replace (path : String) (messages : List String) :
    List (String × List String) → List (String × List String)
  | [] => [(path, messages)]
  | (p, old) :: rest =>
    if p = path then (p, messages) :: rest
    else if path < p then (path, messages) :: (p, old) :: rest
    else (p, old) :: replace path messages rest

/-- The strings of a list that holds nothing else. -/
def strings? : Json.Value → Option (List String)
  | .array items => items.mapM Json.Value.string?
  | _ => none

/-- The collection that the members of an object describe; of several members with one key the
last one counts, but each must hold a list of strings. -/
def ofMembers? (entries : List (String × List String)) :
    List (String × Json.Value) → Option (List (String × List String))
  | [] => some entries
  | (path, value) :: rest =>
    match strings? value with
    | some messages => ofMembers? (replace path messages entries) rest
    | none => none

/-- The collection that an object of lists of strings describes. -/
def ofValue? : Json.Value → Option Errors
  | .object members => (ofMembers? [] members).map Errors.mk
  | _ => none

/-- The collection that a text describes. -/
def ofText? (text : String) : Option Errors :=
  (Json.Value.readVerbatim text).toOption.bind ofValue?

/-- Hands out the paths with their messages and leaves nothing behind. -/
def drain (e : Errors) : List (String × List String) × Errors :=
  (e.entries, empty)

end Errors
end Schemata.Validation
