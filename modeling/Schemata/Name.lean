import Schemata.Text.Split

/-!
# Logical names

Schemas are addressed by names made of segments between slashes.  `Name.normalize` drops empty
and `.` segments and lets `..` cancel the segment before it, so that every way to write a name
leads to one text; `Name.directory` is all before the last slash of that text, and `Name.join`
reads a reference relative to a directory.
-/

namespace Schemata.Name

/-- One part of a name between two slashes. -/
abbrev Segment := List Char

/-- The parts of a name between its slashes. -/
def segments (name : List Char) : List Segment :=
  Text.splitAt '/' name

/-- The segment that stands for the directory above. -/
def parent : Segment := ['.', '.']

/-- Takes one more segment onto the segments kept so far, last one first.  Above the root of an
absolute name there is nothing. -/
def push (absolute : Bool) (kept : List Segment) (s : Segment) : List Segment :=
  if s = [] ∨ s = ['.'] then kept
  else if s = parent then
    match kept with
    | top :: below =>
      if top ≠ parent then below else if absolute then kept else parent :: kept
    | [] => if absolute then [] else [parent]
  else s :: kept

/-- The name starts with a slash. -/
def isAbsolute (name : List Char) : Bool :=
  name.head? == some '/'

/-- The segments of the normal form. -/
def normalSegments (name : List Char) : List Segment :=
  ((segments name).foldl (push (isAbsolute name)) []).reverse

/-- Segments with slashes between them. -/
def joinSegments (ss : List Segment) : List Char :=
  List.intercalate ['/'] ss

/-- The normal form of a name, as characters. -/
def normalizeChars (name : List Char) : List Char :=
  let joined := joinSegments (normalSegments name)
  if isAbsolute name then '/' :: joined else joined

/-- The normal form of a name. -/
def normalize (name : String) : String :=
  String.ofList (normalizeChars name.toList)

/-- The directory of a name: empty at the top level, `/` directly under the root. -/
def directory (name : String) : String :=
  let normal := normalSegments name.toList
  let above := joinSegments normal.dropLast
  String.ofList (if isAbsolute name.toList then '/' :: above else above)

/-- The part of the normal form behind its last slash. -/
def base (name : String) : String :=
  String.ofList ((normalSegments name.toList).getLastD [])

/-- A reference read relative to a directory; the empty directory is the top level. -/
def join (directory reference : String) : String :=
  if directory = "" ∨ isAbsolute reference.toList then normalize reference
  else normalize (directory ++ "/" ++ reference)

end Schemata.Name
