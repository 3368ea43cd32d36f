/-!
# Places in YAML text

A cursor holds the unread text with the number of characters before it, its line and its column,
all counted from zero.  A carriage return with a line feed behind it is one line break.
-/

namespace Schemata.Yaml

/-- The unread text and where it begins. -/
structure Cursor where
  rest : List Char
  index : Nat
  line : Nat
  column : Nat
  deriving DecidableEq, Repr

/-- Spaces and tabs. -/
def isBlank (c : Char) : Bool :=
  c = ' ' || c = '\t'

/-- The characters that end a line. -/
def isBreak (c : Char) : Bool :=
  c = '\n' || c = '\r' || c = '\u0085' || c = '\u2028' || c = '\u2029'

/-- The characters of names: ASCII letters and digits, underscores and hyphens. -/
def isNameChar (c : Char) : Bool :=
  c.isAlphanum || c = '_' || c = '-'

namespace Cursor

/-- The start of a text.  A byte order mark before it does not count, and a second one counts as a
blank. -/
def start (text : List Char) : Cursor :=
  match text with
  | '\uFEFF' :: '\uFEFF' :: rest => ⟨rest, 1, 0, 1⟩
  | '\uFEFF' :: rest => ⟨rest, 0, 0, 0⟩
  | rest => ⟨rest, 0, 0, 0⟩

/-- The character so many places on. -/
def peek? (c : Cursor) (n : Nat) : Option Char :=
  c.rest[n]?

/-- The next character is the given one. -/
def startsWith (c : Cursor) (d : Char) : Bool :=
  c.rest.head? == some d

/-- The text has been read to its end. -/
def atEnd (c : Cursor) : Bool :=
  c.rest.isEmpty

/-- The character so many places on ends a line, or there is none. -/
def breakAt (c : Cursor) (n : Nat) : Bool :=
  (c.peek? n).all isBreak

/-- The character so many places on is blank or ends a line, or there is none. -/
def blankAt (c : Cursor) (n : Nat) : Bool :=
  (c.peek? n).all fun d => isBlank d || isBreak d

/-- Steps over so many characters of one line. -/
def skip (c : Cursor) (n : Nat) : Cursor :=
  ⟨c.rest.drop n, c.index + n, c.line, c.column + n⟩

/-- Steps over the characters of a line that pass a test. -/
def skipWhile (p : Char → Bool) (c : Cursor) : Cursor :=
  c.skip (c.rest.takeWhile p).length

/-- The characters of a line that pass a test, and the place behind them. -/
def takeWhile (p : Char → Bool) (c : Cursor) : List Char × Cursor :=
  (c.rest.takeWhile p, c.skipWhile p)

/-- Steps over a line break, if there is one, and answers how it is read: as a line feed, or as
itself when it is a line or paragraph separator. -/
def readBreak (c : Cursor) : List Char × Cursor :=
  match c.rest with
  | '\r' :: '\n' :: rest => (['\n'], ⟨rest, c.index + 2, c.line + 1, 0⟩)
  | d :: rest =>
    if isBreak d then
      (if d = '\u2028' ∨ d = '\u2029' then [d] else ['\n'], ⟨rest, c.index + 1, c.line + 1, 0⟩)
    else ([], c)
  | [] => ([], c)

/-- Steps over a line break, if there is one. -/
def skipBreak (c : Cursor) : Cursor :=
  c.readBreak.2

/-- A marker of a document's start or end stands at the beginning of a line. -/
def atDocumentMarker (c : Cursor) : Bool :=
  c.column == 0 && c.blankAt 3 &&
    (['-', '-', '-'].isPrefixOf c.rest || ['.', '.', '.'].isPrefixOf c.rest)

/-- Steps over blanks, a comment and the line break behind them; `none` if something else stands
before the end of the line. -/
def endOfLine? (c : Cursor) : Option Cursor :=
  let c := c.skipWhile isBlank
  let c := if c.startsWith '#' then c.skipWhile fun d => !isBreak d else c
  if c.breakAt 0 then some c.skipBreak else none

end Cursor
end Schemata.Yaml
