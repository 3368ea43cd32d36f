import Schemata.Pattern.CharSet

/-!
# Patterns as written

The tree of a pattern, before flags are applied to it and before any name is looked up.
-/

namespace Schemata.Pattern

/-- The flags that a group can set. -/
inductive Flag where
  | caseInsensitive
  | multiLine
  | dotAll
  | swapGreed
  | unicode
  | crlf
  | ignoreSpace
  deriving DecidableEq, Repr

/-- Flags with whether they are switched on. -/
abbrev FlagItems := List (Flag × Bool)

/-- Conditions on a place between two characters. -/
inductive Anchor where
  | lineStart
  | lineEnd
  | textStart
  | textEnd
  | wordBoundary
  | noWordBoundary
  | wordStart
  | wordEnd
  | wordStartHalf
  | wordEndHalf
  deriving DecidableEq, Repr

/-- What a property escape asks for. -/
inductive PropertyQuery where
  | named (name : List Char)
  | valued (name value : List Char)
  deriving DecidableEq, Repr

/-- The operations between sets in brackets. -/
inductive SetOp where
  | intersection
  | difference
  | symmetricDifference
  deriving DecidableEq, Repr

/-- A literal character; `byte` marks a two-digit hexadecimal escape, which stands for a byte
where Unicode is switched off. -/
structure Literal where
  char : Char
  byte : Bool
  deriving DecidableEq, Repr

/-- A set of characters as written. -/
inductive SetExpr where
  | literal (l : Literal)
  | range (low high : Literal)
  | shorthand (kind : Shorthand) (negated : Bool)
  | property (query : PropertyQuery) (negated : Bool)
  | ascii (name : String) (negated : Bool)
  | bracketed (negated : Bool) (set : SetExpr)
  | union (items : List SetExpr)
  | operation (op : SetOp) (left right : SetExpr)

/-- A pattern as written. -/
inductive Expr where
  | empty
  | literal (l : Literal)
  | dot
  | anchor (a : Anchor)
  | set (s : SetExpr)
  | flags (items : FlagItems)
  | group (items : FlagItems) (e : Expr)
  | repetition (least : Nat) (most : Option Nat) (e : Expr)
  | concat (es : List Expr)
  | alternation (es : List Expr)

namespace SetExpr

mutual

/-- The levels of nesting in a set. -/
def depth : SetExpr → Nat
  | bracketed _ s => 1 + depth s
  | union items => 1 + depthAll items
  | operation _ l r => 1 + max (depth l) (depth r)
  | _ => 0

/-- The levels of nesting in a list of sets. -/
def depthAll : List SetExpr → Nat
  | [] => 0
  | s :: rest => max (depth s) (depthAll rest)

end

/-- Items next to each other; a lone one stands for itself. -/
def ofItems : List SetExpr → SetExpr
  | [s] => s
  | items => union items

end SetExpr

namespace Expr

mutual

/-- The levels of nesting in a pattern. -/
def depth : Expr → Nat
  | set (.bracketed _ s) => 1 + s.depth
  | group _ e => 1 + depth e
  | repetition _ _ e => 1 + depth e
  | concat es => 1 + depthAll es
  | alternation es => 1 + depthAll es
  | _ => 0

/-- The levels of nesting in a list of patterns. -/
def depthAll : List Expr → Nat
  | [] => 0
  | e :: rest => max (depth e) (depthAll rest)

end

/-- Patterns one after the other; a lone one stands for itself. -/
def ofItems : List Expr → Expr
  | [] => empty
  | [e] => e
  | es => concat es

/-- Patterns side by side; a lone one stands for itself. -/
def ofBranches : List Expr → Expr
  | [e] => e
  | es => alternation es

end Expr
end Schemata.Pattern
