import Schemata.Pattern.Regex
import Schemata.Validation.Validator

/-!
# Searching texts

A set of places in a text is a natural number: its bit `i` tells whether the place before the
character `i` is in the set.  For one text, every set of characters and every condition becomes
such a number, and an expression maps the places where a match may start to those where it may
end.  A text is matched when some place is reached from any place.
-/

namespace Schemata.Pattern

/-- The number whose bits tell which items of a list pass a test. -/
def maskOf (test : α → Bool) (items : List α) : Nat :=
  items.foldr (fun item mask => 2 * mask + (if test item then 1 else 0)) 0

/-- The places of a text, each with the characters before and behind it. -/
def borders : Option Char → List Char → List (Option Char × Option Char)
  | before, [] => [(before, none)]
  | before, c :: rest => (before, some c) :: borders (some c) rest

/-- A regular expression prepared for one text. -/
inductive Plan where
  | stay
  | step (mask : Nat)
  | only (mask : Nat)
  | seq (first second : Plan)
  | alt (left right : Plan)
  | repetition (least : Nat) (most : Nat) (p : Plan)

/-- Prepares an expression for a text.  More repetitions than the text has places add nothing. -/
def Regex.plan (text : List Char) (places : List (Option Char × Option Char)) : Regex → Plan
  | empty => .stay
  | char set => .step (maskOf set text)
  | look l => .only (maskOf l.holds places)
  | seq a b => .seq (a.plan text places) (b.plan text places)
  | alt a b => .alt (a.plan text places) (b.plan text places)
  | repetition least most r =>
    .repetition least (most.getD (least + text.length + 1)) (r.plan text places)

/-- Applies a function so many times, or until it changes nothing. -/
def iterate (f : Nat → Nat) : Nat → Nat → Nat
  | 0, places => places
  | n + 1, places =>
    let next := f places
    if next = places then places else iterate f n next

namespace Plan

/-- The places reached from the given ones. -/
def reach : Plan → Nat → Nat
  | stay, places => places
  | step mask, places => 2 * (places &&& mask)
  | only mask, places => places &&& mask
  | seq a b, places => b.reach (a.reach places)
  | alt a b, places => a.reach places ||| b.reach places
  | repetition least most p, places =>
    iterate (fun q => q ||| p.reach q) (most - least) (iterate p.reach least places)

end Plan

/-- Some part of the text matches. -/
def Regex.search (r : Regex) (text : String) : Bool :=
  let chars := text.toList
  (r.plan chars (borders none chars)).reach (Nat.pow 2 (chars.length + 1) - 1) != 0

/-- Patterns as the validator uses them. -/
def engine : Validation.Engine Regex :=
  ⟨Regex.compile, Regex.search⟩

end Schemata.Pattern
