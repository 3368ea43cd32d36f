import Schemata.Text.Split

/-!
# Paths

A path is kept as the parts of its text between slashes, so nothing of the text is lost: an
absolute path begins with an empty part, a path with a slash at its end has an empty last part, and
the empty path is one empty part.
-/

namespace Schemata

/-- A path, as its parts between slashes. -/
structure Path where
  parts : List String
  deriving DecidableEq, Repr

namespace Path

/-- The path with a given text. -/
def ofText (text : String) : Path :=
  ⟨(Text.splitAt '/' text.toList).map String.ofList⟩

/-- The text of a path. -/
def text (p : Path) : String :=
  String.intercalate "/" p.parts

/-- The path begins with a slash. -/
def isAbsolute (p : Path) : Bool :=
  match p.parts with
  | "" :: _ :: _ => true
  | _ => false

/-- A part that leads nowhere: the empty one and a point. -/
def isIdle (part : String) : Bool :=
  part = "" || part = "."

/-- Parts without the idle ones at their end. -/
def trimEnd (parts : List String) : List String :=
  (parts.reverse.dropWhile isIdle).reverse

/-- The path of a name below a path; the name does not begin with a slash. -/
def join (p : Path) (name : String) : Path :=
  if p.parts.getLast? = some "" then ⟨p.parts.dropLast ++ (ofText name).parts⟩
  else ⟨p.parts ++ (ofText name).parts⟩

/-- The path without its last part that leads anywhere.  The root and the empty path have none. -/
def parent? (p : Path) : Option Path :=
  let orEmpty := fun (parts : List String) => if parts.isEmpty then [""] else parts
  match p.parts with
  | "" :: rest =>
    match trimEnd rest with
    | [] => none
    | kept => some ⟨"" :: orEmpty (trimEnd kept.dropLast)⟩
  | "." :: rest =>
    match trimEnd rest with
    | [] => some ⟨[""]⟩
    | kept => some ⟨"." :: trimEnd kept.dropLast⟩
  | parts =>
    match trimEnd parts with
    | [] => none
    | kept => some ⟨orEmpty (trimEnd kept.dropLast)⟩

/-- What stands behind the last point of the last name.  A point at the start of a name does not
count. -/
def extension? (p : Path) : Option String :=
  match (trimEnd p.parts).getLast? with
  | some name =>
    if name = ".." then none
    else
      match (Text.splitAt '.' name.toList).reverse with
      | [] | [_] | [_, []] => none
      | last :: _ => some (String.ofList last)
  | none => none

end Path
end Schemata
