import Schemata.Command.Sources
import Schemata.Command.Usage

/-!
# The program

Loads what a run may look at from the disk, runs the command line on it, writes the files that the
run has added, and prints how it ended.
-/

namespace Schemata.Program

open Command

/-- Takes over what the disk has at a path: a file or a directory, or else what there is on the way
to it. -/
partial def load (fs : FileSystem) (p : Path) : IO FileSystem := do
  try
    let content ← IO.FS.readBinFile p.text
    return (fs.writeFile (p.parent?.getD p) p content).2
  catch _ =>
    try
      let there ← IO.FS.realPath p.text
      return if ← there.isDir then (fs.makeDirectories p).2 else fs
    catch _ =>
      match p.parent? with
      | some above => load fs above
      | none => return fs

/-- Takes over the documents of the pending names, of what they refer to, and so on, with the
cached schemas of these names. -/
partial def loadNames (s : Settings) (fs : FileSystem) (known : List String) :
    List String → IO FileSystem
  | [] => return fs
  | name :: pending => do
    if known.contains name then loadNames s fs known pending
    else
      let p := documentPath s name
      let mut fs ← load fs p
      if let some q := cachePath? s name then
        fs ← load fs q
      let found := match fs.read p with
        | .ok bytes => namesFrom name bytes
        | .error _ => []
      loadNames s fs (name :: known) (found ++ pending)

/-- Nothing but the directories on the way to the one that the program was started in. -/
def emptyFiles : IO FileSystem := do
  let here := Path.ofText (← IO.currentDir).toString
  let fs : FileSystem := ⟨[], []⟩
  return { (fs.makeDirectories here).2 with current := here.parts.drop 1 }

/-- What a run may look at. -/
def loadSources (i : Invocation) : IO FileSystem := do
  let mut fs ← emptyFiles
  if let some path := i.options.config then
    fs ← load fs (.ofText path)
  if let some source := i.action.source? then
    fs ← load fs (.ofText source)
  match settingsOf i.options fs with
  | .error _ => return fs
  | .ok s => loadNames s fs [] [Name.normalize i.action.schemaName]

/-- Writes a file through one beside it, so that it is never seen half written. -/
def store (l : Location) (content : ByteArray) : IO Unit := do
  let name := fun (l : Location) => "/" ++ String.intercalate "/" l
  IO.FS.createDirAll (name l.dropLast)
  IO.FS.writeBinFile (name l ++ ".new") content
  IO.FS.rename (name l ++ ".new") (name l)

/-- Writes the files that differ from those loaded. -/
def storeChanges (before after : FileSystem) : IO Unit := do
  for (l, content) in after.files do
    match before.entry? l with
    | some (.file old) => if old != content then store l content
    | _ => store l content

/-- Runs a complete command line. -/
def run (i : Invocation) : IO Ending := do
  let before ← loadSources i
  let input ← match i.action with
    | .validate source _ _ =>
      if source = standardInput then (← IO.getStdin).readBinToEnd else pure .empty
    | .build _ _ => pure .empty
  let (ending, after) := i.run input before
  storeChanges before after
  return ending

end Schemata.Program

open Schemata Command in
/-- Runs the command line and answers its exit code. -/
def main (arguments : List String) : IO UInt32 := do
  match Invocation.ofArguments arguments with
  | .error stop =>
    IO.print stop.output
    if stop = .misuse then
      for line in usage do
        IO.eprintln line
    return stop.exitCode.toUInt32
  | .ok i =>
    try
      let ending ← Program.run i
      IO.print ending.output
      if let some line := ending.schemaErrorLine? then
        IO.eprintln line
      if let .failed f := ending then
        IO.eprintln ("error: " ++ f.message)
      return ending.exitCode.toUInt32
    catch e =>
      IO.eprintln ("error: " ++ toString e)
      return 1
