/-!
# Places in a schema document

A pointer lists the keys and indices that lead from the root of a document to a place in it.  Its
text marks the root by `#` and escapes `~` and `/` inside a segment.
-/

namespace Schemata

/-- The segments that lead from the root to a place. -/
abbrev Pointer := List String

namespace Pointer

/-- A character inside a segment: `~` is written `~0` and `/` is written `~1`. -/
def escapeChar (c : Char) : List Char :=
  if c = '~' then ['~', '0'] else if c = '/' then ['~', '1'] else [c]

/-- A segment with a slash before it. -/
def segmentChars (segment : String) : List Char :=
  '/' :: segment.toList.flatMap escapeChar

/-- The text of a pointer. -/
def text (p : Pointer) : String :=
  String.ofList ('#' :: p.flatMap segmentChars)

/-- The schema of a property. -/
def property (p : Pointer) (name : String) : Pointer :=
  p ++ ["properties", name]

/-- The schema of all items. -/
def items (p : Pointer) : Pointer :=
  p ++ ["items"]

/-- The schema of the item at an index. -/
def item (p : Pointer) (index : Nat) : Pointer :=
  p ++ ["items", Nat.repr index]

end Pointer
end Schemata
