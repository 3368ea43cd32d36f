import Schemata.Json.Printer
import Schemata.Yaml.Construction

/-!
# From YAML to JSON

A YAML value has a JSON form if every key is a string, a number or a truth value and every number
is finite.  Tags are dropped.  Of keys that become equal the first position and the last value
stay.
-/

namespace Schemata.Yaml

/-- Why a value has no JSON form. -/
inductive ConversionFault where
  | key (key : Value)
  | infinity (negative : Bool)
  | nan
  deriving Repr

/-- The wording of a fault. -/
def ConversionFault.message : ConversionFault → String
  | key k => "unsupported YAML map key: " ++ k.shown
  | infinity negative =>
    "cannot represent " ++ (if negative then "-inf" else "inf") ++ " in JSON"
  | nan => "cannot represent NaN in JSON"

/-- The JSON form of a number: a whole number by its signed word or else by its unsigned one, any
other as the float it is. -/
def Number.toJson : Number → Except ConversionFault Json.Number
  | finite n =>
    match n.signed?, n.unsigned? with
    | some i, _ => .ok (.ofSigned i)
    | none, some u => .ok (.ofUnsigned u)
    | none, none => .ok (.float n.toBinary64)
  | infinity negative => .error (.infinity negative)
  | nan => .error .nan

namespace Value

/-- The text that stands for a key in an object. -/
def keyText? : Value → Option String
  | string s => some s
  | number n => some n.text
  | bool b => some (if b then "true" else "false")
  | _ => none

mutual

/-- The JSON form of a value. -/
def toJson : Value → Except ConversionFault Json.Value
  | null => .ok .null
  | bool b => .ok (.bool b)
  | number n => do return .number (← n.toJson)
  | string s => .ok (.string s)
  | sequence items => do return .array (← itemsToJson items)
  | mapping entries => do return .object (Json.Members.ofList (← entriesToJson entries))
  | tagged _ value => toJson value

/-- The JSON forms of the items of a sequence. -/
def itemsToJson : List Value → Except ConversionFault (List Json.Value)
  | [] => .ok []
  | v :: rest => do
    let item ← toJson v
    return item :: (← itemsToJson rest)

/-- The members that the entries of a mapping become. -/
def entriesToJson : List (Value × Value) → Except ConversionFault (List (String × Json.Value))
  | [] => .ok []
  | (k, v) :: rest =>
    match keyText? k with
    | none => .error (.key k)
    | some key => do
      let value ← toJson v
      return (key, value) :: (← entriesToJson rest)

end

end Value

/-- Why a text has no JSON form: it is not YAML, or its value has none. -/
inductive TextFault where
  | notYaml
  | conversion (fault : ConversionFault)
  deriving Repr

/-- The compact JSON text of YAML text. -/
def jsonText (text : String) : Except TextFault String :=
  match Value.ofText? text with
  | none => .error .notYaml
  | some v =>
    match v.toJson with
    | .ok json => .ok json.compact
    | .error fault => .error (.conversion fault)

end Schemata.Yaml
