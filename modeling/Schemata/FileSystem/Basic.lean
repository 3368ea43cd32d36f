import Schemata.FileSystem.Path
import Schemata.Text.Visible

/-!
# File systems

A file system is a tree of directories and files, kept as the entries at their locations, with the
directory that relative paths start from.  Operations answer paths as the usual ones do: every part
of a path but the last must lead to a directory, `..` leads back, and a slash at the end asks for a
directory.
-/

namespace Schemata

/-- Why an operation on files fails. -/
inductive FileError where
  | notFound
  | busy
  | alreadyExists
  | notDirectory
  | isDirectory
  | invalid
  | nameTooLong
  | nulInName
  deriving DecidableEq, Repr

/-- The wording of an error. -/
def FileError.message : FileError → String
  | notFound => "No such file or directory (os error 2)"
  | busy => "Device or resource busy (os error 16)"
  | alreadyExists => "File exists (os error 17)"
  | notDirectory => "Not a directory (os error 20)"
  | isDirectory => "Is a directory (os error 21)"
  | invalid => "Invalid argument (os error 22)"
  | nameTooLong => "File name too long (os error 36)"
  | nulInName => "file name contained an unexpected NUL byte"

/-- What may be found at a location. -/
inductive Entry where
  | directory
  | file (content : ByteArray)

instance : DecidableEq Entry
  | .directory, .directory => .isTrue rfl
  | .directory, .file _ => .isFalse nofun
  | .file _, .directory => .isFalse nofun
  | .file content, .file other =>
    match ByteArray.instDecidableEq content other with
    | .isTrue h => .isTrue (congrArg Entry.file h)
    | .isFalse h => .isFalse fun heq => h (Entry.file.inj heq)

/-- The names that lead from the root to an entry. -/
abbrev Location := List String

/-- Entries by their locations, and the location that relative paths start from. -/
structure FileSystem where
  entries : List (Location × Entry)
  current : Location
  deriving DecidableEq

namespace FileSystem

/-- What is found at a location; the root is a directory. -/
def entry? (fs : FileSystem) (l : Location) : Option Entry :=
  if l = [] then some .directory else fs.entries.lookup l

/-- The entry is put in place of the location's old one, or behind all entries. -/
def replaceEntry (l : Location) (e : Entry) : List (Location × Entry) → List (Location × Entry)
  | [] => [(l, e)]
  | (m, d) :: rest => if m = l then (m, e) :: rest else (m, d) :: replaceEntry l e rest

/-- Puts an entry at a location. -/
def set (fs : FileSystem) (l : Location) (e : Entry) : FileSystem :=
  { fs with entries := replaceEntry l e fs.entries }

/-- The files with their locations. -/
def files (fs : FileSystem) : List (Location × ByteArray) :=
  fs.entries.filterMap fun (l, e) =>
    match e with
    | .file content => some (l, content)
    | .directory => none

/-! ## Following paths -/

/-- A path has fewer bytes than this. -/
def pathLimit : Nat := 4096

/-- A name has at most this many bytes. -/
def nameLimit : Nat := 255

/-- No path has too many bytes, and the empty one leads nowhere. -/
def checkPath (p : Path) : Except FileError Unit :=
  if p.text.toList.contains '\x00' then .error .nulInName
  else if p.text = "" then .error .notFound
  else if pathLimit ≤ p.text.utf8ByteSize then .error .nameTooLong
  else .ok ()

/-- Where a part of a path leads from a directory. -/
def step (l : Location) (part : String) : Except FileError Location :=
  if Path.isIdle part then .ok l
  else if part = ".." then .ok l.dropLast
  else if nameLimit < part.utf8ByteSize then .error .nameTooLong
  else .ok (l ++ [part])

/-- Where parts lead from a directory if every one of them leads to a directory. -/
def enter (fs : FileSystem) : Location → List String → Except FileError Location
  | l, [] => .ok l
  | l, part :: rest => do
    let next ← step l part
    match fs.entry? next with
    | none => .error .notFound
    | some (.file _) => .error .notDirectory
    | some .directory => fs.enter next rest

/-- Where a path starts. -/
def start (fs : FileSystem) (p : Path) : Location :=
  if p.isAbsolute then [] else fs.current

/-- The location that a path names, whether or not there is an entry. -/
def locate (fs : FileSystem) (p : Path) : Except FileError Location := do
  checkPath p
  let directory ← fs.enter (fs.start p) p.parts.dropLast
  step directory (p.parts.getLastD "")

/-- A directory is found at the path. -/
def isDirectory (fs : FileSystem) (p : Path) : Bool :=
  match fs.locate p with
  | .ok l =>
    match fs.entry? l with
    | some .directory => true
    | _ => false
  | .error _ => false

/-- The content of a file. -/
def read (fs : FileSystem) (p : Path) : Except FileError ByteArray := do
  match fs.entry? (← fs.locate p) with
  | none => .error .notFound
  | some .directory => .error .isDirectory
  | some (.file content) => .ok content

/-! ## Changes -/

/-- The parts of a path without slashes at the end of its text. -/
def withoutSlash (p : Path) : List String :=
  (p.parts.reverse.dropWhile (· = "")).reverse

/-- A part that is no name of an entry. -/
def isNoName (part : String) : Bool :=
  Path.isIdle part || part = ".."

/-- Makes a directory where there is nothing yet, in a directory that there is. -/
def makeDirectory (fs : FileSystem) (p : Path) : Except FileError FileSystem := do
  checkPath p
  let parts := withoutSlash p
  let directory ← fs.enter (fs.start p) parts.dropLast
  let last := parts.getLastD ""
  if isNoName last then .error .alreadyExists
  else
    let l ← step directory last
    match fs.entry? l with
    | none => .ok (fs.set l .directory)
    | some _ => .error .alreadyExists

/-- Makes a directory together with those above it, of which there are at most so many.  What has
been made stays even if the rest fails. -/
def makeDirectoriesUpTo : Nat → FileSystem → Path → Except FileError Unit × FileSystem
  | 0, fs, _ => (.error .notFound, fs)
  | bound + 1, fs, p =>
    if p.text = "" then (.ok (), fs)
    else
      match fs.makeDirectory p with
      | .ok made => (.ok (), made)
      | .error .notFound =>
        match p.parent? with
        | none => (.error .notFound, fs)
        | some above =>
          match makeDirectoriesUpTo bound fs above with
          | (.error e, made) => (.error e, made)
          | (.ok (), made) =>
            match made.makeDirectory p with
            | .ok all => (.ok (), all)
            | .error e => (if made.isDirectory p then .ok () else .error e, made)
      | .error e => (if fs.isDirectory p then .ok () else .error e, fs)

/-- Makes a directory together with those above it. -/
def makeDirectories (fs : FileSystem) (p : Path) : Except FileError Unit × FileSystem :=
  makeDirectoriesUpTo (p.parts.length + 1) fs p

/-- The location at a path that a file can be put at: in a directory that there is, and in the place
of another file or of nothing. -/
def destination (fs : FileSystem) (p : Path) : Except FileError Location := do
  if p.text.toList.contains '\x00' then .error .invalid
  else
    checkPath p
    let parts := withoutSlash p
    let directory ← fs.enter (fs.start p) parts.dropLast
    let last := parts.getLastD ""
    if isNoName last then .error .busy
    else
      let l ← step directory last
      if parts.length < p.parts.length then .error .notDirectory
      else
        match fs.entry? l with
        | some .directory => .error .isDirectory
        | _ => .ok l

/-- Puts a complete file in the place of the one at a path, if any, or of nothing. -/
def replaceFile (fs : FileSystem) (p : Path) (content : ByteArray) :
    Except FileError FileSystem := do
  return fs.set (← fs.destination p) (.file content)

/-- Puts a complete file at a path, in a directory that is made if need be.  If that fails, no file
has changed. -/
def writeFile (fs : FileSystem) (directory p : Path) (content : ByteArray) :
    Except FileError Unit × FileSystem :=
  match fs.makeDirectories directory with
  | (.error e, made) => (.error e, made)
  | (.ok (), made) =>
    match made.replaceFile p content with
    | .ok written => (.ok (), written)
    | .error e => (.error e, made)

/-! ## Temporary files -/

/-- Takes the entry at a location away. -/
def erase (fs : FileSystem) (l : Location) : FileSystem :=
  { fs with entries := fs.entries.filter (·.1 ≠ l) }

/-- Makes an empty file where there is nothing yet. -/
def createFile (fs : FileSystem) (p : Path) : Except FileError (Location × FileSystem) := do
  let l ← fs.locate p
  match fs.entry? l with
  | none => .ok (l, fs.set l (.file .empty))
  | some _ => .error .alreadyExists

/-- Moves the file at a location to a path. -/
def moveFile (fs : FileSystem) (source : Location) (p : Path) : Except FileError FileSystem := do
  let l ← fs.destination p
  match fs.entry? source with
  | some (.file content) => .ok ((fs.erase source).set l (.file content))
  | _ => .error .notFound

/-- The path from the root. -/
def absolute (fs : FileSystem) (p : Path) : Path :=
  if p.isAbsolute then p else ⟨"" :: fs.current ++ p.parts⟩

/-- So many names are tried for a temporary file. -/
def temporaryAttempts : Nat := 65536

/-- The name of a temporary file, with its number in six digits. -/
def temporaryName (n : Nat) : String :=
  ".tmp" ++ String.ofList ([5, 4, 3, 2, 1, 0].map fun i => Nat.digitChar (n / Nat.pow 10 i % 10))

/-- Why a file cannot be stored. -/
inductive StoringFault where
  | outright (error : FileError)
  | temporary (error : FileError) (path : Path)
  | noTemporary (directory : Path)
  deriving DecidableEq, Repr

/-- The wording of a fault, which tells the path of a temporary file. -/
def StoringFault.message : StoringFault → String
  | outright e => e.message
  | temporary e p => e.message ++ " at path " ++ String.ofList (Text.shown p.text)
  | noTemporary p => "too many temporary files exist at path " ++ String.ofList (Text.shown p.text)

/-- Makes an empty file in a directory under a name that is not taken. -/
def createTemporary (fs : FileSystem) (directory : Path) :
    Nat → Except StoringFault (Location × FileSystem)
  | 0 => .error (.noTemporary (fs.absolute directory))
  | n + 1 =>
    let p := (fs.absolute directory).join (temporaryName n)
    match fs.createFile p with
    | .ok created => .ok created
    | .error .alreadyExists => createTemporary fs directory n
    | .error e => .error (.temporary e p)

/-- Stores a file at a path, in a directory that is made if need be.  The content is written to a
temporary file in the directory, which is moved when it is complete, and taken away if it cannot
be moved. -/
def storeFile (fs : FileSystem) (directory p : Path) (content : ByteArray) :
    Except StoringFault Unit × FileSystem :=
  match fs.makeDirectories directory with
  | (.error e, made) => (.error (.outright e), made)
  | (.ok (), made) =>
    match made.createTemporary directory temporaryAttempts with
    | .error fault => (.error fault, made)
    | .ok (temporary, created) =>
      let written := created.set temporary (.file content)
      match written.moveFile temporary p with
      | .ok stored => (.ok (), stored)
      | .error e => (.error (.outright e), written.erase temporary)

end FileSystem
end Schemata
