import Schemata.Yaml.Token.Scalars

/-!
# From text to tokens

The lexer keeps the columns of the open block collections, and for every flow collection (and for
the block level) the place where a key without a mark of its own may have begun.  When the colon
behind such a key is met, the `key` token, and the start of a block mapping if there is none yet,
are put before the tokens of the key.
-/

namespace Schemata.Yaml

/-- Where a key may have begun: how many tokens came before it, its place, and whether it must be a
key because it stands at the indentation of a block mapping. -/
structure KeyStart where
  required : Bool
  tokenCount : Nat
  index : Nat
  line : Nat
  column : Nat
  deriving DecidableEq, Repr

/-- The tokens so far, last one first, with the state that later ones depend on.  `keys` has an entry
for the block level and for every open flow collection, innermost first. -/
structure Lexer where
  cursor : Cursor
  tokens : List Token
  indent : Int
  outerIndents : List Int
  keyAllowed : Bool
  keys : List (Option KeyStart)
  deriving Repr

namespace Lexer

/-- Nothing has been read. -/
def start (text : List Char) : Lexer :=
  ⟨.start text, [], -1, [], true, [none]⟩

/-- Some flow collection is open. -/
def inFlow (l : Lexer) : Bool :=
  1 < l.keys.length

/-- One more token. -/
def emit (l : Lexer) (t : Token) : Lexer :=
  { l with tokens := t :: l.tokens }

/-- One more token, which takes so many characters. -/
def emitSkip (l : Lexer) (t : Token) (n : Nat) : Lexer :=
  { l.emit t with cursor := l.cursor.skip n }

/-- A token put before all but the first so many ones. -/
def insertAt (l : Lexer) (count : Nat) (t : Token) : Lexer :=
  let behind := l.tokens.length - count
  { l with tokens := l.tokens.take behind ++ t :: l.tokens.drop behind }

/-- Steps over blanks, comments and line breaks.  Outside of flow collections a line break allows a
key again, and tabs may only stand where none is allowed. -/
def skipSpace : List Char → Lexer → Lexer
  | [], l => l
  | _ :: bound, l =>
    let tabs := l.inFlow || !l.keyAllowed
    let c := l.cursor.skipWhile fun d => d = ' ' || (tabs && d = '\t')
    let c := if c.startsWith '#' then c.skipWhile fun d => !isBreak d else c
    if c.rest.head?.any isBreak then
      skipSpace bound
        { l with cursor := c.skipBreak, keyAllowed := l.keyAllowed || !l.inFlow }
    else { l with cursor := c }

/-- A key ends on its line and within 1024 characters; one that must be a key may not get lost. -/
def dropStaleKeys (l : Lexer) : Option Lexer := do
  let keys ← l.keys.mapM fun key =>
    match key with
    | none => some none
    | some k =>
      if k.line < l.cursor.line ∨ k.index + 1024 < l.cursor.index then
        if k.required then none else some none
      else some (some k)
  return { l with keys := keys }

/-- The innermost key cannot be one any more. -/
def dropKey (l : Lexer) : Option Lexer :=
  match l.keys with
  | some k :: outer => if k.required then none else some { l with keys := none :: outer }
  | _ => some l

/-- The next token may begin a key. -/
def saveKey (l : Lexer) : Option Lexer :=
  if l.keyAllowed then do
    let c := l.cursor
    let required := !l.inFlow && l.indent == (c.column : Int)
    let l ← l.dropKey
    return { l with
      keys := some ⟨required, l.tokens.length, c.index, c.line, c.column⟩ :: l.keys.drop 1 }
  else some l

/-- Opens a block collection if the column lies deeper than the innermost one; its token comes
behind the first so many ones. -/
def openBlock (l : Lexer) (column : Nat) (count : Nat) (t : Token) : Lexer :=
  if !l.inFlow && l.indent < (column : Int) then
    { l.insertAt count t with
      indent := column
      outerIndents := l.indent :: l.outerIndents }
  else l

/-- Closes the block collections that lie deeper than the column. -/
def closeBlocks (column : Int) : List Int → Lexer → Lexer
  | [], l => l
  | outer :: rest, l =>
    if column < l.indent then
      closeBlocks column rest { l.emit .blockEnd with indent := outer, outerIndents := rest }
    else l

/-- Closes block collections, of which there are none inside flow collections. -/
def unroll (l : Lexer) (column : Int) : Lexer :=
  if l.inFlow then l else closeBlocks column l.outerIndents l

/-- A marker of a document's start or end, or a directive, closes everything. -/
def closeDocument (l : Lexer) : Option Lexer := do
  let l ← (l.unroll (-1)).dropKey
  return { l with keyAllowed := false }

/-- Opens a flow collection. -/
def openFlow (l : Lexer) (t : Token) : Option Lexer := do
  let l ← l.saveKey
  return { l.emitSkip t 1 with keyAllowed := true, keys := none :: l.keys }

/-- Closes a flow collection. -/
def closeFlow (l : Lexer) (t : Token) : Option Lexer := do
  let l ← l.dropKey
  let keys := if l.inFlow then l.keys.drop 1 else l.keys
  return { l.emitSkip t 1 with keyAllowed := false, keys := keys }

/-- The comma between items of a flow collection. -/
def flowEntry (l : Lexer) : Option Lexer := do
  let l ← l.dropKey
  return { l.emitSkip .flowEntry 1 with keyAllowed := true }

/-- The hyphen before an item of a block sequence. -/
def blockEntry (l : Lexer) : Option Lexer := do
  if !l.inFlow && !l.keyAllowed then none
  else
    let l ← (l.openBlock l.cursor.column l.tokens.length .blockSequenceStart).dropKey
    return { l.emitSkip .blockEntry 1 with keyAllowed := true }

/-- The question mark before a key. -/
def explicitKey (l : Lexer) : Option Lexer := do
  if !l.inFlow && !l.keyAllowed then none
  else
    let l ← (l.openBlock l.cursor.column l.tokens.length .blockMappingStart).dropKey
    return { l.emitSkip .key 1 with keyAllowed := !l.inFlow }

/-- The colon before a value. -/
def colon (l : Lexer) : Option Lexer :=
  match l.keys with
  | some k :: outer =>
    let l := (l.insertAt k.tokenCount .key).openBlock k.column k.tokenCount .blockMappingStart
    some { l.emitSkip .value 1 with keyAllowed := false, keys := none :: outer }
  | _ =>
    if !l.inFlow && !l.keyAllowed then none
    else
      let l := l.openBlock l.cursor.column l.tokens.length .blockMappingStart
      some { l.emitSkip .value 1 with keyAllowed := !l.inFlow }

/-- A token that may begin a key, read by a reader of its own. -/
def content (l : Lexer) (read : Cursor → Option (Token × Cursor)) : Option Lexer := do
  let l ← l.saveKey
  let (t, c) ← read l.cursor
  return { l.emit t with cursor := c, keyAllowed := false }

/-- A plain scalar; a key is allowed on the line behind it. -/
def plain (l : Lexer) : Option Lexer := do
  let l ← l.saveKey
  let (text, broken, c) ← readPlain l.inFlow (l.indent + 1).toNat l.cursor
  return { l.emit (.scalar text .plain) with cursor := c, keyAllowed := broken }

/-- A block scalar. -/
def block (l : Lexer) (literal : Bool) : Option Lexer := do
  let l ← l.dropKey
  let (text, c) ← readBlock literal l.indent l.cursor
  let style := if literal then Style.literal else .folded
  return { l.emit (.scalar text style) with cursor := c, keyAllowed := true }

/-- The end of the text. -/
def finish (l : Lexer) : Option Lexer := do
  let l ← (l.unroll (-1)).dropKey
  return l.emit .streamEnd

/-- Characters that cannot begin a plain scalar, unless two of the rules below say so. -/
def isIndicator (c : Char) : Bool :=
  ['-', '?', ':', ',', '[', ']', '\x7b', '\x7d', '#', '&', '*', '!', '|', '>', '\'', '"', '%',
    '@', '\x60'].contains c

/-- A plain scalar may begin here: with a hyphen if no blank follows, and outside of flow
collections with a question mark or a colon if neither blank nor line break follows. -/
def plainAllowed (l : Lexer) (d : Char) : Bool :=
  !(isBlank d || isBreak d || isIndicator d) ||
    (d = '-' && !(l.cursor.peek? 1).any isBlank) ||
    (!l.inFlow && (d = '?' || d = ':') && !l.cursor.blankAt 1)

/-- Reads the next token, which begins with the given character. -/
def next (l : Lexer) (d : Char) : Option Lexer :=
  let c := l.cursor
  if c.column = 0 ∧ d = '%' then do
    let l ← l.closeDocument
    let (t, c) ← readDirective l.cursor
    return { l.emit t with cursor := c }
  else if c.atDocumentMarker then do
    let l ← l.closeDocument
    return l.emitSkip (if d = '-' then .documentStart else .documentEnd) 3
  else if d = '[' then l.openFlow .flowSequenceStart
  else if d = '\x7b' then l.openFlow .flowMappingStart
  else if d = ']' then l.closeFlow .flowSequenceEnd
  else if d = '\x7d' then l.closeFlow .flowMappingEnd
  else if d = ',' then l.flowEntry
  else if d = '-' ∧ c.blankAt 1 then l.blockEntry
  else if d = '?' ∧ (l.inFlow ∨ c.blankAt 1) then l.explicitKey
  else if d = ':' ∧ (l.inFlow ∨ c.blankAt 1) then l.colon
  else if d = '*' then
    l.content fun c => (readAnchorName c).map fun (name, c) => (.reference name, c)
  else if d = '&' then
    l.content fun c => (readAnchorName c).map fun (name, c) => (.anchor name, c)
  else if d = '!' then l.content (readTag l.inFlow)
  else if d = '|' ∧ ¬ l.inFlow then l.block true
  else if d = '>' ∧ ¬ l.inFlow then l.block false
  else if d = '\'' then
    l.content fun c => (readQuoted true c).map fun (s, c) => (.scalar s .singleQuoted, c)
  else if d = '"' then
    l.content fun c => (readQuoted false c).map fun (s, c) => (.scalar s .doubleQuoted, c)
  else if l.plainAllowed d then l.plain
  else none

/-- Reads all tokens; the bound is a list longer than the text. -/
def run : List Char → Lexer → Option Lexer
  | [], _ => none
  | _ :: bound, l => do
    let l ← (skipSpace (' ' :: l.cursor.rest) l).dropStaleKeys
    match l.cursor.rest with
    | [] => l.finish
    | d :: _ =>
      let l := l.unroll l.cursor.column
      run bound (← l.next d)

end Lexer

/-- The characters that may stand in YAML text. -/
def isAllowed (c : Char) : Bool :=
  let n := c.toNat
  c = '\t' || c = '\n' || c = '\r' || (0x20 ≤ n && n ≤ 0x7E) || n == 0x85 ||
    (0xA0 ≤ n && n ≤ 0xFFFD) || 0x10000 ≤ n

/-- The tokens of a text. -/
def Token.ofText? (text : String) : Option (List Token) :=
  let chars := text.toList
  if chars.all isAllowed then
    (Lexer.run (' ' :: chars) (.start chars)).map fun l => l.tokens.reverse
  else none

end Schemata.Yaml
