import Schemata.Json.Reader
import Schemata.Yaml.Cursor
import Schemata.Yaml.Token

/-!
# Reading scalars, names and tags

The parts of a YAML text that are tokens by themselves.  Each reader starts at a cursor and
answers what it read with the cursor behind it, or `none` if the text is wrong.  The first
argument of a loop is a list no shorter than the text still to be read.
-/

namespace Schemata.Yaml

/-- Folds the line breaks between two lines of a scalar: one line feed becomes a blank, further
breaks stay. -/
def foldBreaks (first others : List Char) : List Char :=
  if first.head? = some '\n' then if others.isEmpty then [' '] else others
  else first ++ others

/-- Blanks and line breaks inside a scalar: the blanks before the first break, the first break,
and the breaks behind it. -/
structure Gap where
  blanks : List Char
  first : List Char
  others : List Char
  broken : Bool

namespace Gap

/-- No gap. -/
def none : Gap := ⟨[], [], [], false⟩

/-- The text that a gap stands for. -/
def text (g : Gap) : List Char :=
  if g.broken then foldBreaks g.first g.others else g.blanks

end Gap

/-- Reads a gap.  Where tabs are refused at the start of a line, the number of columns that
indentation takes is given. -/
def readGap (indent : Option Nat) : List Char → Gap → Cursor → Option (Gap × Cursor)
  | [], g, c => some (g, c)
  | _ :: bound, g, c =>
    match c.rest with
    | [] => some (g, c)
    | d :: _ =>
      if isBlank d then
        if g.broken then
          if d = '\t' && (indent.any fun n => c.column < n) then none
          else readGap indent bound g (c.skip 1)
        else readGap indent bound { g with blanks := g.blanks ++ [d] } (c.skip 1)
      else if isBreak d then
        let (b, c) := c.readBreak
        if g.broken then readGap indent bound { g with others := g.others ++ b } c
        else readGap indent bound { g with first := b, broken := true } c
      else some (g, c)

/-! ## Quoted scalars -/

/-- The character of an escape in double quotes, with the number of characters of the escape
behind its backslash. -/
def readEscape : List Char → Option (Char × Nat)
  | [] => none
  | d :: rest =>
    let code := fun (digits : Nat) => do
      if (rest.take digits).length < digits then none
      else
        let values ← (rest.take digits).mapM Json.hexValue?
        let n := values.foldl (fun n v => 16 * n + v) 0
        if n.isValidChar then some (Char.ofNat n, digits + 1) else none
    if d = '0' then some ('\x00', 1)
    else if d = 'a' then some ('\x07', 1)
    else if d = 'b' then some ('\x08', 1)
    else if d = 't' ∨ d = '\t' then some ('\t', 1)
    else if d = 'n' then some ('\n', 1)
    else if d = 'v' then some ('\x0b', 1)
    else if d = 'f' then some ('\x0c', 1)
    else if d = 'r' then some ('\r', 1)
    else if d = 'e' then some ('\x1b', 1)
    else if d = ' ' ∨ d = '"' ∨ d = '/' ∨ d = '\\' then some (d, 1)
    else if d = 'N' then some ('\u0085', 1)
    else if d = '_' then some ('\u00A0', 1)
    else if d = 'L' then some ('\u2028', 1)
    else if d = 'P' then some ('\u2029', 1)
    else if d = 'x' then code 2
    else if d = 'u' then code 4
    else if d = 'U' then code 8
    else none

/-- A run of characters in quotes, up to a blank, a line break or the closing quote.  The flag
tells that the run ended with an escaped line break. -/
def readQuotedRun (single : Bool) :
    List Char → List Char → Cursor → Option (List Char × Bool × Cursor)
  | [], done, c => some (done, false, c)
  | _ :: bound, done, c =>
    match c.rest with
    | [] => some (done, false, c)
    | d :: rest =>
      if isBlank d || isBreak d then some (done, false, c)
      else if single then
        if d = '\'' then
          if rest.head? = some '\'' then readQuotedRun single bound ('\'' :: done) (c.skip 2)
          else some (done, false, c)
        else readQuotedRun single bound (d :: done) (c.skip 1)
      else if d = '"' then some (done, false, c)
      else if d = '\\' then
        if rest.head?.any isBreak then some (done, true, (c.skip 1).skipBreak)
        else do
          let (e, size) ← readEscape rest
          readQuotedRun single bound (e :: done) (c.skip (size + 1))
      else readQuotedRun single bound (d :: done) (c.skip 1)

/-- The rest of a quoted scalar.  The characters read so far come last one first. -/
def readQuotedRest (single : Bool) : List Char → List Char → Cursor → Option (String × Cursor)
  | [], _, _ => none
  | _ :: bound, done, c =>
    if c.atDocumentMarker || c.atEnd then none
    else do
      let (done, escaped, c) ← readQuotedRun single c.rest done c
      if c.startsWith (if single then '\'' else '"') && !escaped then
        some (String.ofList done.reverse, c.skip 1)
      else
        let (gap, c) ← readGap Option.none c.rest { Gap.none with broken := escaped } c
        readQuotedRest single bound (gap.text.reverse ++ done) c

/-- A quoted scalar from its opening quote on. -/
def readQuoted (single : Bool) (c : Cursor) : Option (String × Cursor) :=
  readQuotedRest single c.rest [] (c.skip 1)

/-! ## Plain scalars -/

/-- Flow indicators, which cannot follow a colon inside a plain scalar in a flow collection. -/
def isFlowMark (c : Char) : Bool :=
  c = ',' || c = '?' || c = '[' || c = ']' || c = '\x7b' || c = '\x7d'

/-- The characters that end a plain scalar in a flow collection. -/
def endsPlainInFlow (c : Char) : Bool :=
  c = ',' || c = '[' || c = ']' || c = '\x7b' || c = '\x7d'

/-- A run of characters of a plain scalar. -/
def readPlainRun (flow : Bool) : List Char → List Char → Cursor → Option (List Char × Cursor)
  | [], done, c => some (done, c)
  | _ :: bound, done, c =>
    match c.rest with
    | [] => some (done, c)
    | d :: _ =>
      if isBlank d || isBreak d then some (done, c)
      else if flow && d = ':' && (c.peek? 1).any isFlowMark then none
      else if (d = ':' && c.blankAt 1) || (flow && endsPlainInFlow d) then some (done, c)
      else readPlainRun flow bound (d :: done) (c.skip 1)

/-- The rest of a plain scalar, which ends before a marker, a comment, an indicator, or a line
that is indented less than it must be.  The gap before the rest belongs to the scalar only if more
of it follows. -/
def readPlainRest (flow : Bool) (indent : Nat) :
    List Char → List Char → Gap → Cursor → Option (List Char × Gap × Cursor)
  | [], done, gap, c => some (done, gap, c)
  | _ :: bound, done, gap, c =>
    if c.atDocumentMarker || c.startsWith '#' then some (done, gap, c)
    else do
      let (run, behind) ← readPlainRun flow c.rest [] c
      let (done, gap) :=
        if run.isEmpty then (done, gap) else (run ++ gap.text.reverse ++ done, Gap.none)
      if behind.blankAt 0 && !behind.atEnd then
        let (gap, next) ← readGap (some indent) behind.rest gap behind
        if !flow && next.column < indent then some (done, gap, next)
        else readPlainRest flow indent bound done gap next
      else some (done, gap, behind)

/-- A plain scalar, and whether a line break follows it. -/
def readPlain (flow : Bool) (indent : Nat) (c : Cursor) : Option (String × Bool × Cursor) := do
  let (done, gap, c) ← readPlainRest flow indent c.rest [] Gap.none c
  return (String.ofList done.reverse, gap.broken, c)

/-! ## Block scalars -/

/-- What happens to the line breaks at the end of a block scalar. -/
inductive Chomping where
  | strip
  | clip
  | keep
  deriving DecidableEq, Repr

/-- The sign of a chomping indicator. -/
def chomping? (c : Cursor) : Option Chomping :=
  if c.startsWith '+' then some .keep else if c.startsWith '-' then some .strip else none

/-- An indentation indicator, a digit that is not zero: `some none` if there is none. -/
def increment? (c : Cursor) : Option (Option Nat) :=
  match c.rest with
  | d :: _ =>
    if d = '0' then none
    else if d.isDigit then some (some (d.toNat - 48))
    else some none
  | [] => some none

/-- The indicators of a block scalar, in either order. -/
def readIndicators (c : Cursor) : Option (Chomping × Option Nat × Cursor) :=
  match chomping? c with
  | some chomping => do
    let c := c.skip 1
    match ← increment? c with
    | some n => return (chomping, some n, c.skip 1)
    | none => return (chomping, none, c)
  | none => do
    match ← increment? c with
    | none => return (.clip, none, c)
    | some n =>
      let c := c.skip 1
      match chomping? c with
      | some chomping => return (chomping, some n, c.skip 1)
      | none => return (.clip, some n, c)

/-- Line breaks before a line of a block scalar, together with the indentation of that line.  An
indentation of zero is still to be found out; the widest of the lines is kept for that. -/
def readBlockBreaks (indent : Nat) :
    List Char → List Char → Nat → Cursor → Option (List Char × Nat × Cursor)
  | [], breaks, widest, c => some (breaks, widest, c)
  | _ :: bound, breaks, widest, c =>
    let spaces := (c.rest.takeWhile (· = ' ')).length
    let c := c.skip (if indent = 0 then spaces else min spaces (indent - c.column))
    let widest := max widest c.column
    if (indent = 0 || c.column < indent) && c.startsWith '\t' then none
    else if c.rest.head?.any isBreak then
      let (b, c) := c.readBreak
      readBlockBreaks indent bound (breaks ++ b) widest c
    else some (breaks, widest, c)

/-- The lines of a block scalar.  Between two lines stand the break that ended the first one and
further breaks; folding joins lines that do not start with a blank. -/
def readBlockLines (literal : Bool) (indent : Nat) :
    List Char → List Char → List Char → List Char → Bool → Cursor →
      Option (List Char × List Char × List Char × Cursor)
  | [], done, first, others, _, c => some (done, first, others, c)
  | _ :: bound, done, first, others, blankBefore, c =>
    if c.column = indent ∧ ¬ c.atEnd then do
      let blank := c.rest.head?.any isBlank
      let folded := !literal && first.head? = some '\n' && !blankBefore && !blank
      let gap :=
        if folded then (if others.isEmpty then [' '] else []) ++ others else first ++ others
      let (line, c) := c.takeWhile fun d => !isBreak d
      let (first, c) := c.readBreak
      let (others, _, c) ← readBlockBreaks indent c.rest [] 0 c
      readBlockLines literal indent bound (line.reverse ++ gap.reverse ++ done) first others
        blank c
    else some (done, first, others, c)

/-- A block scalar from its indicator on, in a collection with the given indentation. -/
def readBlock (literal : Bool) (parent : Int) (c : Cursor) : Option (String × Cursor) := do
  let (chomping, increment, c) ← readIndicators (c.skip 1)
  let c ← c.endOfLine?
  let given := match increment with
    | some n => (max parent 0).toNat + n
    | none => 0
  let (breaks, widest, c) ← readBlockBreaks given c.rest [] 0 c
  let indent := if given = 0 then max (max widest (parent + 1).toNat) 1 else given
  let (done, first, others, c) ← readBlockLines literal indent c.rest [] [] breaks false c
  let tail := match chomping with
    | .strip => []
    | .clip => first
    | .keep => first ++ others
  return (String.ofList (done.reverse ++ tail), c)

/-! ## Names and tags -/

/-- The name of an anchor or an alias from its mark on. -/
def readAnchorName (c : Cursor) : Option (String × Cursor) :=
  let (name, c) := (c.skip 1).takeWhile isNameChar
  let ends := c.blankAt 0 ||
    (c.peek? 0).any fun d => ['?', ':', ',', ']', '\x7d', '%', '@', '\x60'].contains d
  if name.isEmpty || !ends then none else some (String.ofList name, c)

/-- The bytes of one character written as percent escapes, so many of them. -/
def readEscapedBytes : Nat → List Char → Option (List UInt8 × List Char)
  | 0, text => some ([], text)
  | n + 1, text =>
    match text with
    | '%' :: a :: b :: rest => do
      let octet := (← Json.hexValue? a) * 16 + (← Json.hexValue? b)
      if octet / 64 = 2 then
        let (others, rest) ← readEscapedBytes n rest
        return (UInt8.ofNat octet :: others, rest)
      else none
    | _ => none

/-- The characters of one percent-escaped character, and the text behind it. -/
def readEscapedChar (text : List Char) : Option (List Char × List Char) :=
  match text with
  | '%' :: a :: b :: rest => do
    let octet := (← Json.hexValue? a) * 16 + (← Json.hexValue? b)
    let width :=
      if octet < 0x80 then 1
      else if octet / 32 = 6 then 2
      else if octet / 16 = 14 then 3
      else if octet / 8 = 30 then 4
      else 0
    if width = 0 then none
    else
      let (others, rest) ← readEscapedBytes (width - 1) rest
      match String.fromUTF8? (ByteArray.mk (UInt8.ofNat octet :: others).toArray) with
      | some s => some (s.toList, rest)
      | none => some (['\uFFFD'], rest)
  | _ => none

/-- The characters that may stand in a tag; inside angle brackets there are three more. -/
def isTagChar (verbatim : Bool) (c : Char) : Bool :=
  isNameChar c ||
    [';', '/', '?', ':', '@', '&', '=', '+', '$', '.', '%', '!', '~', '*', '\'', '(', ')'].contains
      c ||
    (verbatim && (c = ',' || c = '[' || c = ']'))

/-- The characters of a tag. -/
def readTagChars (verbatim : Bool) : List Char → List Char → Cursor → Option (List Char × Cursor)
  | [], done, c => some (done.reverse, c)
  | _ :: bound, done, c =>
    match c.rest with
    | [] => some (done.reverse, c)
    | d :: _ =>
      if isTagChar verbatim d then
        if d = '%' then do
          let (chars, rest) ← readEscapedChar c.rest
          readTagChars verbatim bound (chars.reverse ++ done) (c.skip (c.rest.length - rest.length))
        else readTagChars verbatim bound (d :: done) (c.skip 1)
      else some (done.reverse, c)

/-- The handle of a tag from its exclamation mark on; in a directive it is either that mark alone
or ends with another one. -/
def readHandle (directive : Bool) (c : Cursor) : Option (List Char × Cursor) :=
  if c.startsWith '!' then
    let (name, c) := (c.skip 1).takeWhile isNameChar
    if c.startsWith '!' then some ('!' :: name ++ ['!'], c.skip 1)
    else if directive && !name.isEmpty then none
    else some ('!' :: name, c)
  else none

/-- The handle and the suffix of a tag. -/
def readTag (flow : Bool) (c : Cursor) : Option (Token × Cursor) := do
  let (token, c) ←
    if c.peek? 1 = some '<' then do
      let c := c.skip 2
      let (chars, c) ← readTagChars true c.rest [] c
      if chars.isEmpty || !c.startsWith '>' then none
      else some (Token.tag "" (String.ofList chars), c.skip 1)
    else do
      let (handle, c) ← readHandle false c
      let (chars, c) ← readTagChars false c.rest [] c
      if 1 < handle.length && handle.getLast? = some '!' then
        if chars.isEmpty then none
        else some (Token.tag (String.ofList handle) (String.ofList chars), c)
      else
        let suffix := handle.drop 1 ++ chars
        if suffix.isEmpty then some (Token.tag "" "!", c)
        else some (Token.tag "!" (String.ofList suffix), c)
  if (flow && c.startsWith ',') || c.blankAt 0 then some (token, c) else none

/-! ## Directives -/

/-- A number of at most nine digits. -/
def readVersionNumber (c : Cursor) : Option (Nat × Cursor) :=
  let (digits, c) := c.takeWhile Char.isDigit
  if digits.isEmpty || 9 < digits.length then none
  else some (digits.foldl (fun n d => 10 * n + (d.toNat - 48)) 0, c)

/-- A directive from its percent sign on, with the end of its line. -/
def readDirective (c : Cursor) : Option (Token × Cursor) := do
  let (name, c) := (c.skip 1).takeWhile isNameChar
  if name.isEmpty || !c.blankAt 0 then none
  else if name = "YAML".toList then
    let (major, c) ← readVersionNumber (c.skipWhile isBlank)
    if c.startsWith '.' then
      let (minor, c) ← readVersionNumber (c.skip 1)
      return (.version major minor, ← c.endOfLine?)
    else none
  else if name = "TAG".toList then
    let (handle, c) ← readHandle true (c.skipWhile isBlank)
    if c.rest.head?.any isBlank then
      let c := c.skipWhile isBlank
      let (chars, c) ← readTagChars true c.rest [] c
      if chars.isEmpty || !c.blankAt 0 then none
      else return (.tagDirective (String.ofList handle) (String.ofList chars), ← c.endOfLine?)
    else none
  else none

end Schemata.Yaml
