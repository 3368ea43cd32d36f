/-!
# Command-line arguments

A command line has options for the whole program, the name of an action, and the arguments of the
action; the program's options may also stand among the latter.  An option with a value takes the
next argument, or what follows an equals sign; it is settled when the next option, flag or plain
argument is met at its level, or at the end.  Whatever asks for help is answered at once, so a
mistake counts only if it is found before.
-/

namespace Schemata.Command

/-- Options for the whole program. -/
structure Options where
  config : Option String
  schemaDirectory : Option String
  cacheDirectory : Option String
  noCache : Bool
  deriving DecidableEq, Repr

/-- What the program can do. -/
inductive Action where
  | build (name : String) (pretty : Bool)
  | validate (source schema : String) (allowAdditional : Bool)
  deriving DecidableEq, Repr

/-- A complete command line. -/
structure Invocation where
  options : Options
  action : Action
  deriving DecidableEq, Repr

/-- Why a command line asks for no action. -/
inductive Stop where
  | help
  | version
  | misuse
  deriving DecidableEq, Repr

/-! ## Names -/

/-- Where an argument stands: before the action, or among its arguments. -/
inductive Level where
  | program
  | build
  | validate
  deriving DecidableEq, Repr

/-- Options that have a value. -/
inductive Valued where
  | config
  | schemaDirectory
  | cacheDirectory
  | schema
  deriving DecidableEq, Repr

/-- Options that have none. -/
inductive Flag where
  | verbose
  | noCache
  | pretty
  | allowAdditional
  | help
  | version
  deriving DecidableEq, Repr

/-- The option with a value that has a name. -/
def Valued.ofName? (level : Level) (name : String) : Option Valued :=
  if name = "config" then some config
  else if name = "schema-dir" then some schemaDirectory
  else if name = "cache-dir" then some cacheDirectory
  else if name = "schema" ∧ level = .validate then some schema
  else none

/-- The values of all options but one are paths, which are not empty. -/
def Valued.accepts (option : Valued) (value : String) : Bool :=
  option == schema || value != ""

/-- The flag that has a name. -/
def Flag.ofName? (level : Level) (name : String) : Option Flag :=
  if name = "verbose" then some verbose
  else if name = "no-cache" then some noCache
  else if name = "help" then some help
  else if name = "version" ∧ level = .program then some version
  else if name = "pretty" ∧ level = .build then some pretty
  else if name = "allow-additional-fields" ∧ level = .validate then some allowAdditional
  else none

/-- The flag that has a letter. -/
def Flag.ofLetter? (level : Level) (letter : Char) : Option Flag :=
  if letter = 'v' then some verbose
  else if letter = 'h' then some help
  else if letter = 'V' ∧ level = .program then some version
  else none

/-! ## One level -/

/-- What has been met at a level.  An option may still wait for its value, or to be settled. -/
structure Seen where
  values : List (Valued × String)
  flags : List Flag
  plain : List String
  waiting : Option (Valued × Option String)

namespace Seen

/-- Nothing has been met. -/
def nothing : Seen :=
  ⟨[], [], [], none⟩

/-- Notes the value of an option, which may be given once. -/
def note (s : Seen) (option : Valued) (value : String) : Except Stop Seen :=
  if option.accepts value && (s.values.lookup option).isNone then
    .ok { s with values := s.values ++ [(option, value)] }
  else .error .misuse

/-- Settles the option that is waiting. -/
def settle (s : Seen) : Except Stop Seen :=
  match s.waiting with
  | none => .ok s
  | some (_, none) => .error .misuse
  | some (option, some value) => { s with waiting := none }.note option value

/-- Meets a flag; only verbosity may be asked for more than once. -/
def meetFlag (s : Seen) (flag : Flag) : Except Stop Seen := do
  let s ← s.settle
  match flag with
  | .help => .error .help
  | .version => .error .version
  | .verbose => return s
  | flag => if flag ∈ s.flags then .error .misuse else return { s with flags := flag :: s.flags }

/-- Meets the letters of flags behind one hyphen. -/
def meetLetters (level : Level) : List Char → Seen → Except Stop Seen
  | [], s => .ok s
  | c :: rest, s =>
    match Flag.ofLetter? level c with
    | some flag => do meetLetters level rest (← s.meetFlag flag)
    | none => .error .misuse

/-- Meets the name of an option behind two hyphens, with a value if there is an equals sign. -/
def meetName (level : Level) (s : Seen) (text : List Char) : Except Stop Seen :=
  let name := String.ofList (text.takeWhile (· ≠ '='))
  let value := match text.dropWhile (· ≠ '=') with
    | _ :: rest => some (String.ofList rest)
    | [] => none
  match Valued.ofName? level name, value with
  | some option, some value => do (← s.settle).note option value
  | some option, none => do return { (← s.settle) with waiting := some (option, none) }
  | none, some _ => .error .misuse
  | none, none =>
    match Flag.ofName? level name with
    | some flag => s.meetFlag flag
    | none => .error .misuse

/-- Meets a plain argument; an action has one. -/
def meetPlain (level : Level) (s : Seen) (text : String) : Except Stop Seen :=
  if level ≠ .program ∧ s.plain.isEmpty then do
    return { (← s.settle) with plain := [text] }
  else .error .misuse

/-- Meets an argument, or gives it to the option that waits for its value. -/
def meet (level : Level) (s : Seen) (argument : String) : Except Stop Seen :=
  match argument.toList with
  | '-' :: '-' :: text => s.meetName level text
  | '-' :: c :: text => s.meetLetters level (c :: text)
  | _ =>
    match s.waiting with
    | some (option, none) => .ok { s with waiting := some (option, some argument) }
    | _ => s.meetPlain level argument

/-- An option still waits for its value. -/
def wantsValue (s : Seen) : Bool :=
  match s.waiting with
  | some (_, none) => true
  | _ => false

/-- Meets the arguments of an action.  Behind two hyphens alone all are plain. -/
def meetAll (level : Level) : List String → Seen → Except Stop Seen
  | [], s => s.settle
  | argument :: rest, s =>
    if argument = "--" then do (← rest.foldlM (meetPlain level) s).settle
    else do meetAll level rest (← s.meet level argument)

end Seen

/-! ## The whole line -/

/-- Help on an action or on the program; there is nothing to ask help for below that. -/
def helpOn : List String → Stop
  | [] => .help
  | [topic] => if topic ∈ ["build", "validate", "help"] then .help else .misuse
  | _ => .misuse

/-- An option among the arguments of the action hides the one before the action. -/
def optionsOf (outer inner : Seen) : Options :=
  let value := fun (option : Valued) => inner.values.lookup option <|> outer.values.lookup option
  { config := value .config
    schemaDirectory := value .schemaDirectory
    cacheDirectory := value .cacheDirectory
    noCache := decide (.noCache ∈ inner.flags) || decide (.noCache ∈ outer.flags) }

/-- The action that has been asked for at a level. -/
def actionOf? (level : Level) (s : Seen) : Option Action :=
  match level, s.plain with
  | .build, [name] => some (.build name (.pretty ∈ s.flags))
  | .validate, [source] =>
    (s.values.lookup .schema).map fun schema =>
      .validate source schema (.allowAdditional ∈ s.flags)
  | _, _ => none

/-- The arguments of an action, behind what was met before it. -/
def readAction (outer : Seen) (level : Level) (arguments : List String) :
    Except Stop Invocation := do
  let inner ← Seen.nothing.meetAll level arguments
  match actionOf? level inner with
  | none => .error .misuse
  | some action =>
    let outer ← outer.settle
    return ⟨optionsOf outer inner, action⟩

/-- The arguments from the program's level on. -/
def readFrom : List String → Seen → Except Stop Invocation
  | [], _ => .error .misuse
  | argument :: rest, s =>
    if s.wantsValue then do readFrom rest (← s.meet .program argument)
    else if argument = "build" then readAction s .build rest
    else if argument = "validate" then readAction s .validate rest
    else if argument = "help" then .error (helpOn rest)
    else do readFrom rest (← s.meet .program argument)

/-- Reads a command line. -/
def Invocation.ofArguments (arguments : List String) : Except Stop Invocation :=
  readFrom arguments .nothing

end Schemata.Command
