import Schemata.Pattern.Reader

/-!
# Regular expressions

A pattern becomes a regular expression once its flags have been applied and its names looked up.
With Unicode switched off, nothing may match a part of a character, so a set or a literal that
reaches beyond ASCII is refused there, as far as it stands for bytes.
-/

namespace Schemata.Pattern

/-- Conditions on the characters before and behind a place. -/
inductive Look where
  | textStart
  | textEnd
  | lineStart (crlf : Bool)
  | lineEnd (crlf : Bool)
  | word (unicode : Bool) (anchor : Anchor)
  deriving DecidableEq, Repr

/-- The condition holds between two characters, of which there is none at the ends of the text. -/
def Look.holds : Look → Option Char × Option Char → Bool
  | textStart, (before, _) => before.isNone
  | textEnd, (_, behind) => behind.isNone
  | lineStart false, (before, _) => before.all (· = '\n')
  | lineEnd false, (_, behind) => behind.all (· = '\n')
  | lineStart true, (before, behind) =>
    before.all fun c => c = '\n' || (c = '\r' && behind != some '\n')
  | lineEnd true, (before, behind) =>
    behind.all fun c => c = '\r' || (c = '\n' && before != some '\r')
  | word unicode anchor, (before, behind) =>
    let isWord := if unicode then isWord else Shorthand.word.asciiSet
    let left := before.any isWord
    let right := behind.any isWord
    match anchor with
    | .wordBoundary => left != right
    | .noWordBoundary => left == right
    | .wordStart => !left && right
    | .wordEnd => left && !right
    | .wordStartHalf => !left
    | .wordEndHalf => !right
    | _ => false

/-- A regular expression on characters. -/
inductive Regex where
  | empty
  | char (set : CharSet)
  | look (l : Look)
  | seq (first second : Regex)
  | alt (left right : Regex)
  | repetition (least : Nat) (most : Option Nat) (r : Regex)

instance : Inhabited Regex := ⟨.empty⟩

/-- The flags that bear on what is matched. -/
structure Flags where
  caseInsensitive : Bool
  multiLine : Bool
  dotAll : Bool
  unicode : Bool
  crlf : Bool
  deriving DecidableEq, Repr

namespace Flags

/-- The flags at the start of a pattern. -/
def initial : Flags := ⟨false, false, false, true, false⟩

/-- Switches one flag. -/
def switch (f : Flags) : Flag × Bool → Flags
  | (.caseInsensitive, on) => { f with caseInsensitive := on }
  | (.multiLine, on) => { f with multiLine := on }
  | (.dotAll, on) => { f with dotAll := on }
  | (.unicode, on) => { f with unicode := on }
  | (.crlf, on) => { f with crlf := on }
  | (.swapGreed, _) => f
  | (.ignoreSpace, _) => f

/-- Switches several flags. -/
def apply (f : Flags) (items : FlagItems) : Flags :=
  items.foldl switch f

/-- With case ignored, a set is closed under it. -/
def fold (f : Flags) (s : CharSet) : CharSet :=
  if f.caseInsensitive then if f.unicode then s.foldCase else s.foldAsciiCase else s

/-- The complement is taken where asked for, but not of a set of bytes. -/
def negate (f : Flags) (negated : Bool) (s : CharSet) : Option CharSet :=
  if negated && !f.unicode then none else some (s.negateIf negated)

/-- The condition that an anchor stands for. -/
def look (f : Flags) : Anchor → Look
  | .lineStart => if f.multiLine then .lineStart f.crlf else .textStart
  | .lineEnd => if f.multiLine then .lineEnd f.crlf else .textEnd
  | .textStart => .textStart
  | .textEnd => .textEnd
  | a => .word f.unicode a

/-- The characters that a dot matches. -/
def dot (f : Flags) : Option CharSet :=
  if !f.unicode then none
  else if f.dotAll then some fun _ => true
  else if f.crlf then some fun c => c != '\n' && c != '\r'
  else some fun c => c != '\n'

/-- The characters that a literal matches. -/
def literal (f : Flags) (l : Literal) : Option CharSet :=
  if !f.unicode && l.byte && 0x80 ≤ l.char.toNat then none
  else some (f.fold (· == l.char))

end Flags

namespace SetExpr

/-- A literal in a set, which must be ASCII where Unicode is switched off. -/
def literalAllowed (f : Flags) (l : Literal) : Bool :=
  f.unicode || l.char.toNat < 0x80

/-- The set of a property query. -/
def querySet? : PropertyQuery → Option CharSet
  | .named name => namedSet? name
  | .valued name value => valuedSet? name value

mutual

/-- The characters of a set under flags. -/
def characters (f : Flags) : SetExpr → Option CharSet
  | literal l => if literalAllowed f l then some (· == l.char) else none
  | range low high =>
    if literalAllowed f low && literalAllowed f high then some (.range low.char high.char)
    else none
  | shorthand kind negated => f.negate negated (if f.unicode then kind.set else kind.asciiSet)
  | property query negated => do
    if f.unicode then f.negate negated (f.fold (← querySet? query)) else none
  | ascii name negated => do f.negate negated (f.fold (← asciiSets.lookup name))
  | bracketed negated s => do f.negate negated (f.fold (← characters f s))
  | union items => charactersAll f items
  | operation op left right => do
    let l := f.fold (← characters f left)
    let r := f.fold (← characters f right)
    match op with
    | .intersection => return l.inter r
    | .difference => return l.diff r
    | .symmetricDifference => return l.symmDiff r

/-- The characters of several sets together. -/
def charactersAll (f : Flags) : List SetExpr → Option CharSet
  | [] => some .empty
  | s :: rest => do return (← characters f s).union (← charactersAll f rest)

end

end SetExpr

namespace Expr

mutual

/-- The regular expression of a pattern under flags, and the flags for what follows. -/
def regex (f : Flags) : Expr → Option (Regex × Flags)
  | empty => some (.empty, f)
  | literal l => (f.literal l).map fun s => (.char s, f)
  | dot => f.dot.map fun s => (.char s, f)
  | anchor a => some (.look (f.look a), f)
  | set s => (s.characters f).map fun s => (.char s, f)
  | flags items => some (.empty, f.apply items)
  | group items e => (regex (f.apply items) e).map fun (r, _) => (r, f)
  | repetition least most e => (regex f e).map fun (r, f) => (.repetition least most r, f)
  | concat es => regexSeq f es
  | alternation es => regexAlt f es

/-- One after the other. -/
def regexSeq (f : Flags) : List Expr → Option (Regex × Flags)
  | [] => some (.empty, f)
  | e :: rest => do
    let (first, f) ← regex f e
    let (second, f) ← regexSeq f rest
    return (.seq first second, f)

/-- Side by side; the flags set in one branch hold in the next. -/
def regexAlt (f : Flags) : List Expr → Option (Regex × Flags)
  | [] => some (.empty, f)
  | [e] => regex f e
  | e :: rest => do
    let (left, f) ← regex f e
    let (right, f) ← regexAlt f rest
    return (.alt left right, f)

end

end Expr

/-- The regular expression of a pattern's text.  No pattern is refused for its size: an engine that
compiles patterns to programs bounds the memory of these, and fails for one such as `a{0,1000000}`,
which is accepted here. -/
def Regex.compile (text : String) : Option Regex := do
  let (r, _) ← (← Expr.read text).regex .initial
  return r

end Schemata.Pattern
