import Schemata.Command.Arguments
import Schemata.Pattern.Search
import Schemata.Registry
import Schemata.Settings
import Schemata.Store.Directory
import Schemata.Validation.Validator
import Schemata.Yaml.Conversion

/-!
# Running a command line

A run reads files of a file system and may add cached schemas to it.  It ends with a built schema,
with a report, with an error in the schema documents, or with the failure of something around
them, and each of these has its exit code and its output.
-/

namespace Schemata.Command

open Validation (Report Validator)

/-- What can fail around the schema documents. -/
inductive Failure where
  | settings (fault : SettingsFault)
  | stores (error : SchemaError)
  | source
  | nesting
  | references
  deriving DecidableEq, Repr

/-- The wording of a failure. -/
def Failure.message : Failure → String
  | settings .unreadable => "cannot read the configuration"
  | settings .malformed => "the configuration is malformed"
  | stores e => e.message
  | source => "cannot read the instance"
  | nesting => "the built schema is nested too deeply"
  | references => "the references of the schema do not end"

/-- How a run ends. -/
inductive Ending where
  | built (text : String)
  | report (r : Report)
  | schemaError (e : SchemaError)
  | failed (f : Failure)
  deriving DecidableEq, Repr

namespace Ending

/-- The exit code: an invalid instance counts as a failure, and an error in the schema documents
has a code of its own. -/
def exitCode : Ending → Nat
  | built _ => 0
  | report r => if r.isValid then 0 else 1
  | schemaError _ => 2
  | failed _ => 1

/-- What is printed. -/
def output : Ending → String
  | built text => text ++ "\n"
  | report r => r.toValue.pretty ++ "\n"
  | schemaError _ => ""
  | failed _ => ""

/-- The line that tells of an error in the schema documents. -/
def schemaErrorLine? : Ending → Option String
  | schemaError e => some ("schema error: " ++ e.message)
  | _ => none

/-- An error of the registry lies in the schema documents or around them. -/
def ofError (e : SchemaError) : Ending :=
  if e.isInvalidSchema then .schemaError e else .failed (.stores e)

end Ending

/-! ## Schemas and instances -/

/-- The registry on directories. -/
def registryOf (s : Settings) : Registry FileSystem :=
  let documents := DirectoryStore.store (.ofText s.schemaDirectory)
  let registry := Registry.ofDocuments documents.get
  let registry := match s.cacheDirectory with
    | some directory => registry.withCache (DirectoryStore.store (.ofText directory))
    | none => registry
  { registry with caching := s.usesCache }

/-- Enough levels for the files there are: a file has fewer names than a path may have bytes. -/
def levelsFor (fs : FileSystem) : Nat :=
  Registry.levelsFor (FileSystem.pathLimit * fs.files.length) fs.files.length

/-- The text of a built schema, or how the run ends without it. -/
def buildSchema (s : Settings) (name : String) (fs : FileSystem) :
    Except Ending String × FileSystem :=
  match ((registryOf s).getSchema (levelsFor fs) name).run.run fs with
  | none => (.error (.failed .references), fs)
  | some (.ok text, fs) => (.ok text, fs)
  | some (.error e, fs) => (.error (.ofError e), fs)

/-- The source that stands for the standard input. -/
def standardInput : String := "-"

/-- A file with YAML, as its name says. -/
def isYaml (p : Path) : Bool :=
  p.extension? = some "yaml" || p.extension? = some "yml"

/-- The JSON text of an instance.  YAML without a JSON form is left as it is. -/
def instanceText? (fs : FileSystem) (input : ByteArray) (source : String) : Option String :=
  if source = standardInput then String.fromUTF8? input
  else
    let p := Path.ofText source
    match fs.read p with
    | .error _ => none
    | .ok bytes =>
      (String.fromUTF8? bytes).map fun text =>
        if isYaml p then
          match Yaml.jsonText text with
          | .ok json => json
          | .error _ => text
        else text

/-! ## Actions -/

/-- Prints a built schema as it is, or with indentation. -/
def runBuild (s : Settings) (name : String) (pretty : Bool) (fs : FileSystem) :
    Ending × FileSystem :=
  match buildSchema s name fs with
  | (.error ending, fs) => (ending, fs)
  | (.ok text, fs) =>
    if pretty then
      match Json.Value.read text with
      | .ok v => (.built v.pretty, fs)
      | .error _ => (.failed .nesting, fs)
    else (.built text, fs)

/-- Reports on an instance. -/
def runValidate (s : Settings) (source schema : String) (allowAdditional : Bool)
    (input : ByteArray) (fs : FileSystem) : Ending × FileSystem :=
  match buildSchema s schema fs with
  | (.error ending, fs) => (ending, fs)
  | (.ok schemaText, fs) =>
    match instanceText? fs input source with
    | none => (.failed .source, fs)
    | some text =>
      let validator := Validator.fresh Pattern.engine (s.allowsAdditional || allowAdditional)
      match (validator.validate text schemaText).1 with
      | .ok r => (.report r, fs)
      | .error e => (.ofError e, fs)

/-- The settings of a command line: those of its file, under its own options. -/
def settingsOf (o : Options) (fs : FileSystem) : Except SettingsFault Settings := do
  let s ← Settings.load (o.config.map fun path => fs.read (.ofText path))
  return s.under ⟨o.schemaDirectory, o.cacheDirectory, o.noCache⟩

/-- Runs a complete command line. -/
def Invocation.run (i : Invocation) (input : ByteArray) (fs : FileSystem) : Ending × FileSystem :=
  match settingsOf i.options fs with
  | .error fault => (.failed (.settings fault), fs)
  | .ok s =>
    match i.action with
    | .build name pretty => runBuild s name pretty fs
    | .validate source schema allowAdditional =>
      runValidate s source schema allowAdditional input fs

end Schemata.Command
