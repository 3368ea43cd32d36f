import Schemata.Json.Reader
import Schemata.Pattern.Expr

/-!
# Reading patterns

`Expr.read` reads a pattern one item at a time onto a stack of open groups, and a bracketed set
onto a stack of open brackets and pending operations; `none` means that the text is no pattern.
The loops are bounded by the text itself: their first argument is a list no shorter than the
text still to be read.

Where blanks are ignored, they are skipped before every item together with comments, which run
from `#` to the end of the line.
-/

namespace Schemata.Pattern

/-- Groups and brackets may be nested this many levels deep. -/
def nestLimit : Nat := 250

/-- The text after blanks and comments; the flag tells that a comment is open. -/
def skipVerbose : Bool → List Char → List Char
  | _, [] => []
  | true, c :: rest => skipVerbose (c != '\n') rest
  | false, c :: rest =>
    if isSpace c then skipVerbose false rest
    else if c = '#' then skipVerbose true rest
    else c :: rest

/-- The text after what is ignored before an item. -/
def skip (verbose : Bool) (text : List Char) : List Char :=
  if verbose then skipVerbose false text else text

/-! ## Escapes -/

/-- The character with a code. -/
def charOfCode? (n : Nat) : Option Char :=
  if n.isValidChar then some (Char.ofNat n) else none

/-- The number of so many hexadecimal digits. -/
def readHexFixed (verbose : Bool) : Nat → Nat → List Char → Option (Nat × List Char)
  | 0, n, text => some (n, text)
  | _ + 1, _, [] => none
  | digits + 1, n, c :: rest => do
    let v ← Json.hexValue? c
    readHexFixed verbose digits (16 * n + v) (skip verbose rest)

/-- The characters up to a closing brace, which is consumed. -/
def readBraced (verbose : Bool) : List Char → List Char → Option (List Char × List Char)
  | [], _ => none
  | _ :: bound, text =>
    match skip verbose text with
    | [] => none
    | c :: rest =>
      if c = '\x7d' then some ([], rest)
      else (readBraced verbose bound rest).map fun (cs, rest) => (c :: cs, rest)

/-- A hexadecimal escape, whose letter has the given number of digits. -/
def readHex (verbose : Bool) (digits : Nat) (text : List Char) : Option (Literal × List Char) :=
  match skip verbose text with
  | [] => none
  | '\x7b' :: rest => do
    let (cs, rest) ← readBraced verbose rest rest
    if cs.isEmpty then none
    else
      let vs ← cs.mapM Json.hexValue?
      let c ← charOfCode? (vs.foldl (fun n v => 16 * n + v) 0)
      return (⟨c, false⟩, rest)
  | text => do
    let (n, rest) ← readHexFixed verbose digits 0 text
    let c ← charOfCode? n
    return (⟨c, digits == 2⟩, rest)

/-- The parts of a text before and behind the first place where a mark of one or two characters
stands. -/
def splitAtMark (mark : List Char) : List Char → Option (List Char × List Char)
  | [] => none
  | c :: rest =>
    if mark.isPrefixOf (c :: rest) then some ([], (c :: rest).drop mark.length)
    else (splitAtMark mark rest).map fun (before, after) => (c :: before, after)

/-- The query of a braced property; an unequal sign turns the set around. -/
def queryOfName (name : List Char) : PropertyQuery × Bool :=
  match splitAtMark ['!', '='] name with
  | some (key, value) => (.valued key value, true)
  | none =>
    match splitAtMark [':'] name with
    | some (key, value) => (.valued key value, false)
    | none =>
      match splitAtMark ['='] name with
      | some (key, value) => (.valued key value, false)
      | none => (.named name, false)

/-- A property escape behind its letter: one character, or a name in braces. -/
def readProperty (verbose negated : Bool) (text : List Char) : Option (SetExpr × List Char) :=
  match skip verbose text with
  | [] => none
  | '\x7b' :: rest => do
    let (name, rest) ← readBraced verbose rest rest
    let (query, unequal) := queryOfName name
    return (.property query (negated != unequal), rest)
  | c :: rest => if c = '\\' then none else some (.property (.named [c]) negated, rest)

/-- What an escape or a single character stands for. -/
inductive Item where
  | literal (l : Literal)
  | set (s : SetExpr)
  | anchor (a : Anchor)

/-- Characters with a meaning of their own. -/
def isMeta (c : Char) : Bool :=
  ['\\', '.', '+', '*', '?', '(', ')', '|', '[', ']', '\x7b', '\x7d', '^', '$', '#', '&', '-',
    '~'].contains c

/-- ASCII characters that an escape leaves as they are: all but letters, digits and angle
brackets. -/
def isEscapable (c : Char) : Bool :=
  c.toNat < 0x80 && !c.isAlphanum && c != '<' && c != '>'

/-- The characters of the names of special word boundaries. -/
def isBoundaryChar (c : Char) : Bool :=
  c.isAlpha || c = '-'

/-- The letters of a special word boundary's name. -/
def readBoundaryName (verbose : Bool) : List Char → List Char → List Char × List Char
  | [], text => ([], text)
  | _ :: bound, text =>
    match text with
    | c :: rest =>
      if isBoundaryChar c then
        let (name, rest) := readBoundaryName verbose bound (skip verbose rest)
        (c :: name, rest)
      else ([], c :: rest)
    | [] => ([], [])

/-- A word boundary behind its letter.  A brace opens the name of a special one, unless what
follows can only be a count. -/
def readBoundary (verbose : Bool) (text : List Char) : Option (Anchor × List Char) :=
  match text with
  | '\x7b' :: rest =>
    match skip verbose rest with
    | [] => none
    | c :: inside =>
      if !isBoundaryChar c then some (.wordBoundary, text)
      else
        match readBoundaryName verbose (c :: inside) (c :: inside) with
        | (name, '\x7d' :: rest) =>
          if name = "start".toList then some (.wordStart, rest)
          else if name = "end".toList then some (.wordEnd, rest)
          else if name = "start-half".toList then some (.wordStartHalf, rest)
          else if name = "end-half".toList then some (.wordEndHalf, rest)
          else none
        | _ => none
  | _ => some (.wordBoundary, text)

/-- An escape behind its backslash. -/
def readEscape (verbose : Bool) : List Char → Option (Item × List Char)
  | [] => none
  | c :: rest =>
    let literal := fun (d : Char) => some (Item.literal ⟨d, false⟩, rest)
    let shorthand := fun (kind : Shorthand) (negated : Bool) =>
      some (Item.set (.shorthand kind negated), rest)
    let anchor := fun (a : Anchor) => some (Item.anchor a, rest)
    let hex := fun (digits : Nat) =>
      (readHex verbose digits rest).map fun (l, rest) => (Item.literal l, rest)
    let property := fun (negated : Bool) =>
      (readProperty verbose negated rest).map fun (s, rest) => (Item.set s, rest)
    if c = 'x' then hex 2
    else if c = 'u' then hex 4
    else if c = 'U' then hex 8
    else if c = 'p' then property false
    else if c = 'P' then property true
    else if c = 'd' then shorthand .digit false
    else if c = 'D' then shorthand .digit true
    else if c = 's' then shorthand .space false
    else if c = 'S' then shorthand .space true
    else if c = 'w' then shorthand .word false
    else if c = 'W' then shorthand .word true
    else if isMeta c || isEscapable c then literal c
    else if c = 'a' then literal '\x07'
    else if c = 'f' then literal '\x0c'
    else if c = 't' then literal '\t'
    else if c = 'n' then literal '\n'
    else if c = 'r' then literal '\r'
    else if c = 'v' then literal '\x0b'
    else if c = 'A' then anchor .textStart
    else if c = 'z' then anchor .textEnd
    else if c = 'B' then anchor .noWordBoundary
    else if c = '<' then anchor .wordStart
    else if c = '>' then anchor .wordEnd
    else if c = 'b' then
      (readBoundary verbose rest).map fun (a, rest) => (Item.anchor a, rest)
    else none

/-! ## Bracketed sets -/

/-- The set that an ASCII name in brackets and colons selects, from its opening bracket on. -/
def readAsciiSet : List Char → Option (SetExpr × List Char)
  | '[' :: ':' :: rest => do
    let (negated, rest) :=
      match rest with
      | '^' :: rest => (true, rest)
      | rest => (false, rest)
    let (name, rest) ← splitAtMark [':'] rest
    match rest with
    | ']' :: rest =>
      let name := String.ofList name
      if (asciiSets.lookup name).isSome then some (.ascii name negated, rest) else none
    | _ => none
  | _ => none

/-- Hyphens at the start of a set stand for themselves. -/
def readHyphens (verbose : Bool) : List Char → List Char → List SetExpr × List Char
  | [], text => ([], text)
  | _ :: bound, text =>
    match text with
    | '-' :: rest =>
      let (items, rest) := readHyphens verbose bound (skip verbose rest)
      (.literal ⟨'-', false⟩ :: items, rest)
    | text => ([], text)

/-- The start of a set behind its opening bracket: whether it is negated, and the items that
stand for themselves only here. -/
def readSetStart (verbose : Bool) (text : List Char) :
    Option (Bool × List SetExpr × List Char) := do
  let text := skip verbose text
  let (negated, text) :=
    match text with
    | '^' :: rest => (true, skip verbose rest)
    | text => (false, text)
  let (hyphens, text) := readHyphens verbose text text
  match hyphens, text with
  | _, [] => none
  | [], ']' :: rest =>
    match skip verbose rest with
    | [] => none
    | rest => some (negated, [.literal ⟨']', false⟩], rest)
  | items, text => some (negated, items, text)

/-- One character or escape in a set. -/
def readSetItem (verbose : Bool) : List Char → Option (Item × List Char)
  | [] => none
  | c :: rest =>
    if c = '\\' then readEscape verbose rest else some (.literal ⟨c, false⟩, rest)

/-- The next character of the text that is not ignored. -/
def peekItem (verbose : Bool) (text : List Char) : Option Char :=
  (skip verbose text).head?

/-- An item of a set, or a range between two literals. -/
def readSetRange (verbose : Bool) (text : List Char) : Option (SetExpr × List Char) := do
  let (first, rest) ← readSetItem verbose text
  match skip verbose rest with
  | [] => none
  | '-' :: behind =>
    if peekItem verbose behind = some ']' ∨ peekItem verbose behind = some '-' then
      single first ('-' :: behind)
    else
      let (second, rest) ← readSetItem verbose (skip verbose behind)
      match first, second with
      | .literal low, .literal high =>
        if low.char ≤ high.char then some (.range low high, rest) else none
      | _, _ => none
  | rest => single first rest
where
  /-- An item that starts no range. -/
  single (item : Item) (rest : List Char) : Option (SetExpr × List Char) :=
    match item with
    | .literal l => some (.literal l, rest)
    | .set s => some (s, rest)
    | .anchor _ => none

/-- An open bracket with the items before it, last one first, or a pending operation with its
left side. -/
inductive SetFrame where
  | bracket (negated : Bool) (outer : List SetExpr)
  | pending (op : SetOp) (left : SetExpr)

/-- The items read so far as the right side of a pending operation, if there is one. -/
def closeOperation (items : List SetExpr) :
    List SetFrame → SetExpr × List SetFrame
  | .pending op left :: frames => (.operation op left (.ofItems items.reverse), frames)
  | frames => (.ofItems items.reverse, frames)

/-- An operation between sets. -/
def readSetOp : List Char → Option (SetOp × List Char)
  | '&' :: '&' :: rest => some (.intersection, rest)
  | '-' :: '-' :: rest => some (.difference, rest)
  | '~' :: '~' :: rest => some (.symmetricDifference, rest)
  | _ => none

/-- The rest of a set, behind its start.  The items read so far come last one first. -/
def readSetRest (verbose : Bool) :
    List Char → List SetFrame → List SetExpr → List Char → Option (SetExpr × List Char)
  | [], _, _, _ => none
  | _ :: bound, frames, items, text =>
    match skip verbose text with
    | [] => none
    | '[' :: rest =>
      match readAsciiSet ('[' :: rest) with
      | some (s, rest) => readSetRest verbose bound frames (s :: items) rest
      | none => do
        let (negated, first, rest) ← readSetStart verbose rest
        readSetRest verbose bound (.bracket negated items :: frames) first.reverse rest
    | ']' :: rest =>
      match closeOperation items frames with
      | (set, [.bracket negated _]) => some (.bracketed negated set, rest)
      | (set, .bracket negated outer :: frames) =>
        readSetRest verbose bound frames (.bracketed negated set :: outer) rest
      | _ => none
    | text =>
      match readSetOp text with
      | some (op, rest) =>
        let (left, frames) := closeOperation items frames
        readSetRest verbose bound (.pending op left :: frames) [] rest
      | none => do
        let (s, rest) ← readSetRange verbose text
        readSetRest verbose bound frames (s :: items) rest

/-- A set behind its opening bracket. -/
def readSet (verbose : Bool) (text : List Char) : Option (SetExpr × List Char) := do
  let (negated, first, rest) ← readSetStart verbose text
  readSetRest verbose rest [.bracket negated []] first.reverse rest

/-! ## Counts -/

/-- Decimal digits. -/
def readDigits (verbose : Bool) : List Char → List Char → List Char × List Char
  | [], text => ([], text)
  | _ :: bound, text =>
    match text with
    | c :: rest =>
      if '0' ≤ c ∧ c ≤ '9' then
        let (digits, rest) := readDigits verbose bound (skip verbose rest)
        (c :: digits, rest)
      else ([], c :: rest)
    | [] => ([], [])

/-- A count: blanks may stand around its digits, and it is below `2 ^ 32`. -/
def readCount (verbose : Bool) (text : List Char) : Option Nat × List Char :=
  let text := text.dropWhile isSpace
  let (digits, rest) := readDigits verbose text text
  let n := digits.foldl (fun n c => 10 * n + (c.toNat - 48)) 0
  (if digits.isEmpty || 4294967296 ≤ n then none else some n, rest.dropWhile isSpace)

/-- A counted repetition behind its brace. -/
def readCounts (verbose : Bool) (text : List Char) :
    Option (Nat × Option Nat × List Char) := do
  let (least, rest) := readCount verbose (skip verbose text)
  let least ← least
  match rest with
  | '\x7d' :: rest => return (least, some least, rest)
  | ',' :: rest =>
    match skip verbose rest with
    | '\x7d' :: rest => return (least, none, rest)
    | rest =>
      match readCount verbose rest with
      | (some most, '\x7d' :: rest) =>
        if least ≤ most then some (least, some most, rest) else none
      | _ => none
  | _ => none

/-! ## Groups -/

/-- The flag with a letter. -/
def flagOfChar? (c : Char) : Option Flag :=
  if c = 'i' then some .caseInsensitive
  else if c = 'm' then some .multiLine
  else if c = 's' then some .dotAll
  else if c = 'U' then some .swapGreed
  else if c = 'u' then some .unicode
  else if c = 'R' then some .crlf
  else if c = 'x' then some .ignoreSpace
  else none

/-- Flags up to the colon or parenthesis behind them, which is left.  `off` tells that a hyphen has
been read, `dangling` that nothing has followed it yet. -/
def readFlags (off dangling : Bool) (seen : List Flag) :
    List Char → Option (FlagItems × List Char)
  | [] => none
  | c :: rest =>
    if c = ':' ∨ c = ')' then if dangling then none else some ([], c :: rest)
    else if c = '-' then if off then none else readFlags true true seen rest
    else do
      let flag ← flagOfChar? c
      if seen.contains flag then none
      else
        let (items, rest) ← readFlags off false (flag :: seen) rest
        return ((flag, !off) :: items, rest)

/-- The first character of a group's name. -/
def isNameStart (c : Char) : Bool :=
  c = '_' || Unicode.Property.alphabetic.contains c

/-- The other characters of a group's name. -/
def isNameChar (c : Char) : Bool :=
  isNameStart c || c = '.' || c = '[' || c = ']' || Unicode.isCategory "N" c

/-- The name of a group up to the angle bracket behind it, which is consumed. -/
def readName (text : List Char) : Option (List Char × List Char) := do
  let (name, rest) ← splitAtMark ['>'] text
  match name with
  | [] => none
  | c :: more => if isNameStart c && more.all isNameChar then some (name, rest) else none

/-- How a group opens: with the flags that it switches, and the name it has, if any; or no group
but flags for what follows. -/
inductive Opening where
  | group (items : FlagItems) (name : Option (List Char))
  | flags (items : FlagItems)

/-- The opening of a group behind its parenthesis.  There is no looking around. -/
def readOpening (verbose : Bool) (text : List Char) : Option (Opening × List Char) :=
  match skip verbose text with
  | '?' :: '=' :: _ => none
  | '?' :: '!' :: _ => none
  | '?' :: '<' :: '=' :: _ => none
  | '?' :: '<' :: '!' :: _ => none
  | '?' :: 'P' :: '<' :: rest => named rest
  | '?' :: '<' :: rest => named rest
  | '?' :: rest => do
    let (items, rest) ← readFlags false false [] rest
    match rest with
    | ')' :: rest => if items.isEmpty then none else some (.flags items, rest)
    | _ :: rest => some (.group items none, rest)
    | [] => none
  | rest => some (.group [] none, rest)
where
  /-- A named group. -/
  named (rest : List Char) : Option (Opening × List Char) := do
    let (name, rest) ← readName rest
    return (.group [] (some name), rest)

/-- What surrounds an open group: its flags, the branches and the items before it, last one first,
and whether blanks were ignored there. -/
structure Frame where
  items : FlagItems
  branches : List Expr
  before : List Expr
  verbose : Bool

/-- The branches and items of the innermost open group, last one first, the groups around it,
whether blanks are ignored, and the names given so far. -/
structure Progress where
  branches : List Expr
  items : List Expr
  frames : List Frame
  verbose : Bool
  names : List (List Char)

namespace Progress

/-- Nothing has been read. -/
def start : Progress := ⟨[], [], [], false, []⟩

/-- One more item. -/
def push (p : Progress) (e : Expr) : Progress :=
  { p with items := e :: p.items }

/-- The pattern of the innermost group. -/
def current (p : Progress) : Expr :=
  .ofBranches (.ofItems p.items.reverse :: p.branches).reverse

/-- Opens a group, or applies flags. -/
def enter (p : Progress) : Opening → Option Progress
  | .flags items =>
    some { p.push (.flags items) with verbose := (items.lookup .ignoreSpace).getD p.verbose }
  | .group items name =>
    match name with
    | some n =>
      if p.names.contains n then none
      else some (inner items { p with names := n :: p.names })
    | none => some (inner items p)
where
  /-- An empty group inside the others. -/
  inner (items : FlagItems) (p : Progress) : Progress :=
    { p with
      branches := []
      items := []
      frames := ⟨items, p.branches, p.items, p.verbose⟩ :: p.frames
      verbose := (items.lookup .ignoreSpace).getD p.verbose }

/-- Closes the innermost group. -/
def leave (p : Progress) : Option Progress :=
  match p.frames with
  | [] => none
  | frame :: frames =>
    some
      { p with
        branches := frame.branches
        items := .group frame.items p.current :: frame.before
        frames := frames
        verbose := frame.verbose }

/-- Starts another branch. -/
def branch (p : Progress) : Progress :=
  { p with branches := .ofItems p.items.reverse :: p.branches, items := [] }

/-- Repeats the last item; flags cannot be repeated. -/
def repeatLast (p : Progress) (least : Nat) (most : Option Nat) : Option Progress :=
  match p.items with
  | [] => none
  | .flags _ :: _ => none
  | .empty :: _ => none
  | e :: rest => some { p with items := .repetition least most e :: rest }

end Progress

/-- Behind a repetition a question mark changes nothing about what is matched. -/
def skipLazy : List Char → List Char
  | '?' :: rest => rest
  | rest => rest

/-- Reads the rest of a pattern. -/
def readRest : List Char → Progress → List Char → Option Progress
  | [], p, text => if (skip p.verbose text).isEmpty then some p else none
  | _ :: bound, p, text =>
    match skip p.verbose text with
    | [] => some p
    | c :: rest =>
      if c = '(' then do
        let (opening, rest) ← readOpening p.verbose rest
        readRest bound (← p.enter opening) rest
      else if c = ')' then do readRest bound (← p.leave) rest
      else if c = '|' then readRest bound p.branch rest
      else if c = '[' then do
        let (s, rest) ← readSet p.verbose rest
        readRest bound (p.push (.set s)) rest
      else if c = '?' then do
        readRest bound (← p.repeatLast 0 (some 1)) (skipLazy rest)
      else if c = '*' then do readRest bound (← p.repeatLast 0 none) (skipLazy rest)
      else if c = '+' then do readRest bound (← p.repeatLast 1 none) (skipLazy rest)
      else if c = '\x7b' then do
        let (least, most, rest) ← readCounts p.verbose rest
        readRest bound (← p.repeatLast least most) (skipLazy (skip p.verbose rest))
      else if c = '\\' then do
        let (item, rest) ← readEscape p.verbose rest
        match item with
        | .literal l => readRest bound (p.push (.literal l)) rest
        | .set s => readRest bound (p.push (.set s)) rest
        | .anchor a => readRest bound (p.push (.anchor a)) rest
      else if c = '.' then readRest bound (p.push .dot) rest
      else if c = '^' then readRest bound (p.push (.anchor .lineStart)) rest
      else if c = '$' then readRest bound (p.push (.anchor .lineEnd)) rest
      else readRest bound (p.push (.literal ⟨c, false⟩)) rest

/-- The pattern that a text describes. -/
def Expr.read (text : String) : Option Expr := do
  let p ← readRest text.toList .start text.toList
  if p.frames.isEmpty && p.current.depth ≤ nestLimit then some p.current else none

end Schemata.Pattern
