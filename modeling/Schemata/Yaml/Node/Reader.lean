import Schemata.Yaml.Node
import Schemata.Yaml.Token.Lexer

/-!
# From tokens to nodes

A recursive descent over the tokens of a text that holds one document.  Every reader takes a bound
on the number of its steps, which `Document.ofTokens?` computes from the number of tokens.
-/

namespace Schemata.Yaml

/-- The unread tokens, the tag handles of the document with what they stand for, and the numbers
of the anchors so far. -/
structure Source where
  tokens : List Token
  handles : List (String × String)
  anchors : List (String × Nat)

/-- A step that reads tokens and may find them wrong. -/
abbrev NodeReader := StateT Source Option

namespace NodeReader

/-- The next token. -/
def peek : NodeReader Token := do
  return (← get).tokens.head?.getD .streamEnd

/-- Steps over a token. -/
def skip : NodeReader Unit :=
  modify fun s => { s with tokens := s.tokens.drop 1 }

/-- Steps over the given token, or finds another one there. -/
def expect (t : Token) : NodeReader Unit := do
  if (← peek) = t then skip else failure

/-- The number of a name, which is that of its last anchor. -/
def target (name : String) : NodeReader Nat := do
  match (← get).anchors.lookup name with
  | some n => return n
  | none => failure

/-- Gives a number to a name: how many names there are so far. -/
def number (name : String) : NodeReader Nat := do
  let s ← get
  let n := s.anchors.length
  set { s with anchors := (name, n) :: s.anchors.filter (·.1 ≠ name) }
  return n

/-- The text of a tag; a handle must have been declared. -/
def tagText (handle suffix : String) : NodeReader String := do
  if handle = "" then return suffix
  else
    match (← get).handles.lookup handle with
    | some start => return start ++ suffix
    | none => failure

/-- An anchor and a tag, in either order, each at most once. -/
def readLabel : NodeReader Label := do
  match ← peek with
  | .anchor name =>
    skip
    match ← peek with
    | .tag handle suffix =>
      skip
      let tag ← tagText handle suffix
      return ⟨some tag, some (← number name)⟩
    | _ => return ⟨none, some (← number name)⟩
  | .tag handle suffix =>
    skip
    match ← peek with
    | .anchor name =>
      skip
      let tag ← tagText handle suffix
      return ⟨some tag, some (← number name)⟩
    | _ => return ⟨some (← tagText handle suffix), none⟩
  | _ => return ⟨none, none⟩

/-- The place of a node that has been left out. -/
def absent : Node :=
  .scalar ⟨none, none⟩ "" .plain

/-- Steps over a token that marks the value of a key, if it comes next. -/
def valueFollows : NodeReader Bool := do
  if (← peek) = .value then
    skip
    return true
  else return false

mutual

/-- A node.  In the first place two flags say whether a block collection may stand here, and
whether a sequence may stand here that is not indented deeper than the mapping around it. -/
def readNode : Nat → Bool → Bool → NodeReader Node
  | 0, _, _ => failure
  | bound + 1, block, indentless => do
    match ← peek with
    | .reference name =>
      skip
      return .reference (← target name)
    | _ => do
      let label ← readLabel
      match ← peek with
      | .blockEntry =>
        if indentless then return .sequence label (← readFlushItems bound)
        else readEmpty label
      | .scalar text style =>
        skip
        let tag := if label.tag = some "!" then none else label.tag
        return .scalar { label with tag := tag } text style
      | .flowSequenceStart =>
        skip
        return .sequence label (← readFlowItems bound true)
      | .flowMappingStart =>
        skip
        return .mapping label (← readFlowEntries bound true)
      | .blockSequenceStart =>
        if block then
          skip
          return .sequence label (← readBlockItems bound)
        else readEmpty label
      | .blockMappingStart =>
        if block then
          skip
          return .mapping label (← readBlockEntries bound)
        else readEmpty label
      | _ => readEmpty label

/-- A node without content, which needs a label. -/
def readEmpty (label : Label) : NodeReader Node :=
  if label.tag.isSome || label.anchor.isSome then return .scalar label "" .plain else failure

/-- A node, unless one of the given tokens comes next. -/
def readNodeUnless : Nat → List Token → Bool → Bool → NodeReader Node
  | 0, _, _, _ => failure
  | bound + 1, ends, block, indentless => do
    if (← peek) ∈ ends then return absent else readNode bound block indentless

/-- The items of a block sequence up to its end. -/
def readBlockItems : Nat → NodeReader (List Node)
  | 0 => failure
  | bound + 1 => do
    match ← peek with
    | .blockEntry =>
      skip
      let item ← readNodeUnless bound [.blockEntry, .blockEnd] true false
      return item :: (← readBlockItems bound)
    | .blockEnd =>
      skip
      return []
    | _ => failure

/-- The items of a sequence that is not indented deeper than the mapping around it. -/
def readFlushItems : Nat → NodeReader (List Node)
  | 0 => failure
  | bound + 1 => do
    match ← peek with
    | .blockEntry =>
      skip
      let item ← readNodeUnless bound [.blockEntry, .key, .value, .blockEnd] true false
      return item :: (← readFlushItems bound)
    | _ => return []

/-- The entries of a block mapping up to its end. -/
def readBlockEntries : Nat → NodeReader (List (Node × Node))
  | 0 => failure
  | bound + 1 => do
    match ← peek with
    | .key =>
      skip
      let key ← readNodeUnless bound [.key, .value, .blockEnd] true true
      let value ← readBlockValue bound
      return (key, value) :: (← readBlockEntries bound)
    | .blockEnd =>
      skip
      return []
    | _ => failure

/-- The value of an entry of a block mapping. -/
def readBlockValue : Nat → NodeReader Node
  | 0 => failure
  | bound + 1 => do
    if ← valueFollows then readNodeUnless bound [.key, .value, .blockEnd] true true
    else return absent

/-- The items of a flow sequence up to its end; the flag marks the first one. -/
def readFlowItems : Nat → Bool → NodeReader (List Node)
  | 0, _ => failure
  | bound + 1, first => do
    if (← peek) = .flowSequenceEnd then
      skip
      return []
    else
      if !first then expect .flowEntry
      match ← peek with
      | .flowSequenceEnd =>
        skip
        return []
      | .key =>
        skip
        let entry ← readFlowPair bound
        return .mapping ⟨none, none⟩ [entry] :: (← readFlowItems bound false)
      | _ =>
        let item ← readNode bound false false
        return item :: (← readFlowItems bound false)

/-- The one entry of a mapping that stands as an item of a flow sequence.  A token that ends a
key left out is lost. -/
def readFlowPair : Nat → NodeReader (Node × Node)
  | 0 => failure
  | bound + 1 => do
    let key ←
      if (← peek) ∈ [Token.value, .flowEntry, .flowSequenceEnd] then
        skip
        pure absent
      else readNode bound false false
    let value ←
      if ← valueFollows then readNodeUnless bound [.flowEntry, .flowSequenceEnd] false false
      else pure absent
    return (key, value)

/-- The entries of a flow mapping up to its end; the flag marks the first one. -/
def readFlowEntries : Nat → Bool → NodeReader (List (Node × Node))
  | 0, _ => failure
  | bound + 1, first => do
    if (← peek) = .flowMappingEnd then
      skip
      return []
    else
      if !first then expect .flowEntry
      match ← peek with
      | .flowMappingEnd =>
        skip
        return []
      | .key =>
        skip
        let key ← readNodeUnless bound [.value, .flowEntry, .flowMappingEnd] false false
        let value ←
          if ← valueFollows then readNodeUnless bound [.flowEntry, .flowMappingEnd] false false
          else pure absent
        return (key, value) :: (← readFlowEntries bound false)
      | _ =>
        let key ← readNode bound false false
        return (key, absent) :: (← readFlowEntries bound false)

end

/-! ## The document -/

/-- The directives before a document: at most one version, which must be 1.1 or 1.2, and no handle
twice.  Answers the handles that were declared and the tokens behind. -/
def readDirectives :
    Bool → List (String × String) → List Token → Option (List (String × String) × List Token)
  | versioned, handles, .version major minor :: rest =>
    if versioned ∨ major ≠ 1 ∨ (minor ≠ 1 ∧ minor ≠ 2) then none
    else readDirectives true handles rest
  | versioned, handles, .tagDirective handle start :: rest =>
    if handles.any (·.1 = handle) then none
    else readDirectives versioned (handles ++ [(handle, start)]) rest
  | _, handles, rest => some (handles, rest)

/-- The handles that need no declaration. -/
def defaultHandles : List (String × String) :=
  [("!", "!"), ("!!", "tag:yaml.org,2002:")]

/-- Tokens at which a document that has been opened turns out to be empty. -/
def isDocumentEdge : Token → Bool
  | .version _ _ | .tagDirective _ _ | .documentStart | .documentEnd | .streamEnd => true
  | _ => false

/-- The root of a document; behind it only marks of its end may follow. -/
def readRoot (handles : List (String × String)) (tokens : List Token) : Option Document := do
  let (root, s) ← (readNode (4 * tokens.length + 10) true false).run
    ⟨tokens, handles ++ defaultHandles, []⟩
  if s.tokens.dropWhile (· = .documentEnd) = [.streamEnd] then some ⟨some root⟩ else none

end NodeReader

/-- The document of a list of tokens. -/
def Document.ofTokens? (tokens : List Token) : Option Document :=
  match tokens with
  | [.streamEnd] => some ⟨none⟩
  | .version _ _ :: _ | .tagDirective _ _ :: _ | .documentStart :: _ => do
    let (handles, rest) ← NodeReader.readDirectives false [] tokens
    match rest with
    | .documentStart :: rest =>
      if rest.head?.any NodeReader.isDocumentEdge then
        if rest.dropWhile (· = .documentEnd) = [.streamEnd] then
          some ⟨some NodeReader.absent⟩
        else none
      else NodeReader.readRoot handles rest
    | _ => none
  | _ => NodeReader.readRoot [] tokens

/-- The document of a text. -/
def Document.ofText? (text : String) : Option Document := do
  Document.ofTokens? (← Token.ofText? text)

end Schemata.Yaml
