import Schemata.Json.Value
import Schemata.Json.Fault

/-!
# Reading JSON text

Every reader takes the unread text and answers what it read with the rest, or the place where it
stopped.  Nesting is bounded by `depthLimit`, and the reader of a value recurses on the levels
that are left; the loops over items and members recurse on the length of the text.

`Value.readVerbatim` keeps duplicate keys apart; `Value.read` merges them.
-/

namespace Schemata.Json

/-- What was read and the unread rest, or where reading stopped. -/
abbrev Reading (α : Type) := Except Stop (α × List Char)

/-- Goes on with what was read and the rest. -/
def Reading.andThen (r : Reading α) (next : α → List Char → Reading β) : Reading β :=
  match r with
  | .ok (a, rest) => next a rest
  | .error s => .error s

/-- What was read, converted. -/
def Reading.map (f : α → β) (r : Reading α) : Reading β :=
  r.andThen fun a rest => .ok (f a, rest)

/-- Arrays and objects may be nested this many levels deep. -/
def depthLimit : Nat := 127

/-- Blanks between tokens. -/
def isBlank (c : Char) : Bool :=
  c = ' ' || c = '\n' || c = '\t' || c = '\r'

/-- The text after its leading blanks. -/
def skipBlanks (text : List Char) : List Char :=
  text.dropWhile isBlank

/-- A stop at the next byte, which was looked at; at the end of the text there is none. -/
def stopAt (cause : Cause) (rest : List Char) : Except Stop α :=
  .error ⟨cause, rest, 1⟩

/-- A stop between the bytes already read and the rest. -/
def stopBefore (cause : Cause) (rest : List Char) : Except Stop α :=
  .error ⟨cause, rest, 0⟩

/-- The rest of a keyword whose first letter has been read. -/
def readIdent (value : Value) : List Char → List Char → Reading Value
  | [], text => .ok (value, text)
  | _ :: _, [] => stopBefore .endOfText []
  | w :: word, c :: text =>
    if c = w then readIdent value word text else stopAt .expectedIdent (c :: text)

/-! ## String literals -/

/-- The value of a hexadecimal digit. -/
def hexValue? (c : Char) : Option Nat :=
  if '0' ≤ c ∧ c ≤ '9' then some (c.toNat - 48)
  else if 'a' ≤ c ∧ c ≤ 'f' then some (c.toNat - 87)
  else if 'A' ≤ c ∧ c ≤ 'F' then some (c.toNat - 55)
  else none

/-- The code unit of four hexadecimal digits; a bad one is noticed after all four bytes. -/
def readUnit (text : List Char) : Except Stop Nat :=
  if byteCount (text.take 4) < 4 then stopBefore .endOfString []
  else
    match (text.take 4).mapM hexValue? with
    | some [a, b, c, d] => .ok (((a * 16 + b) * 16 + c) * 16 + d)
    | _ => .error ⟨.invalidEscape, text, 4⟩

/-- The unit is the first half of a surrogate pair. -/
def isHighSurrogate (u : Nat) : Bool :=
  0xD800 ≤ u && u < 0xDC00

/-- The unit is the second half of a surrogate pair. -/
def isLowSurrogate (u : Nat) : Bool :=
  0xDC00 ≤ u && u < 0xE000

/-- The character of a `\u` escape, whose text after the `u` is given, and the length of the
escape from the `u` on; the second half of a surrogate pair follows as an escape of its own. -/
def readUnicode (text : List Char) : Except Stop (Char × Nat) := do
  let u ← readUnit text
  let rest := text.drop 4
  if isLowSurrogate u then stopBefore .loneSurrogate rest
  else if isHighSurrogate u then
    match rest with
    | [] => stopBefore .endOfString []
    | ['\\'] => stopBefore .endOfString []
    | '\\' :: 'u' :: rest =>
      let v ← readUnit rest
      if isLowSurrogate v then
        return (Char.ofNat (0x10000 + (u - 0xD800) * 0x400 + (v - 0xDC00)), 11)
      else stopBefore .loneSurrogate (rest.drop 4)
    | '\\' :: rest => stopAt .endOfHexEscape rest
    | rest => stopAt .endOfHexEscape rest
  else return (Char.ofNat u, 5)

/-- The character of an escape, whose text after the backslash is given, and the length of that
text. -/
def readEscape : List Char → Except Stop (Char × Nat)
  | [] => stopBefore .endOfString []
  | c :: rest =>
    if c = '"' then .ok ('"', 1)
    else if c = '\\' then .ok ('\\', 1)
    else if c = '/' then .ok ('/', 1)
    else if c = 'b' then .ok ('\x08', 1)
    else if c = 'f' then .ok ('\x0c', 1)
    else if c = 'n' then .ok ('\n', 1)
    else if c = 'r' then .ok ('\r', 1)
    else if c = 't' then .ok ('\t', 1)
    else if c = 'u' then readUnicode rest
    else stopAt .invalidEscape (c :: rest)

/-- The rest of a string literal.  The first argument counts characters that belong to an escape
already read, the second holds the characters read so far, last one first. -/
def readStringFrom : Nat → List Char → List Char → Reading String
  | _, _, [] => stopBefore .endOfString []
  | skip + 1, done, _ :: text => readStringFrom skip done text
  | 0, done, c :: text =>
    if c = '"' then .ok (String.ofList done.reverse, text)
    else if c = '\\' then
      match readEscape text with
      | .ok (d, size) => readStringFrom size (d :: done) text
      | .error s => .error s
    else if c < ' ' then stopAt .controlCharacter (c :: text)
    else readStringFrom 0 (c :: done) text

/-- A string literal whose opening quote has been read. -/
def readString (text : List Char) : Reading String :=
  readStringFrom 0 [] text

/-! ## Numbers -/

/-- The value of a decimal digit. -/
def digit? (c : Char) : Option Nat :=
  if '0' ≤ c ∧ c ≤ '9' then some (c.toNat - 48) else none

/-- Appends a decimal digit unless the result reaches the bound. -/
def appendDigit? (bound n d : Nat) : Option Nat :=
  if n * 10 + d < bound then some (n * 10 + d) else none

/-- The greatest power of ten that is a finite binary64 number. -/
def greatestPower : Nat := 308

/-- `10 ^ n` as a binary64 number, for `n` up to `greatestPower`. -/
def powerOfTen (n : Nat) : Binary64 :=
  (Binary64.ofDecimal? false 1 n).getD default

/-- Multiplies or divides by a power of ten.  Exponents below `-greatestPower` are taken off in
steps of that size, of which the first argument admits so many; a zero stays zero. -/
def scaleByPower : Nat → Binary64 → Int → Option Binary64
  | 0, x, _ => some x
  | steps + 1, x, exponent =>
    if exponent.natAbs ≤ greatestPower then
      if 0 ≤ exponent then x.mul? (powerOfTen exponent.natAbs)
      else x.div? (powerOfTen exponent.natAbs)
    else if x.isZero then some x
    else if 0 ≤ exponent then none
    else
      (x.div? (powerOfTen greatestPower)).bind
        (scaleByPower steps · (exponent + greatestPower))

/-- The number `± significand * 10 ^ exponent`, computed in binary64 and therefore not always the
nearest one. -/
def floatOfParts (negative : Bool) (significand : Nat) (exponent : Int) (rest : List Char) :
    Reading Number :=
  match (Binary64.ofInt? significand).bind
      (scaleByPower (exponent.natAbs / greatestPower + 1) · exponent) with
  | some x => .ok (.float (if negative then x.negate else x), rest)
  | none => stopBefore .numberOutOfRange rest

/-- The digits of an exponent after the first one.  An exponent of `2 ^ 31` or more makes a zero,
or is out of range. -/
def readExponentDigits (negative : Bool) (significand : Nat) (before : Int) (down : Bool) :
    Nat → List Char → Reading Number
  | exponent, [] => finish exponent []
  | exponent, c :: text =>
    match digit? c with
    | none => finish exponent (c :: text)
    | some d =>
      match appendDigit? 2147483648 exponent d with
      | some exponent => readExponentDigits negative significand before down exponent text
      | none =>
        if significand ≠ 0 ∧ ¬ down then stopBefore .numberOutOfRange (c :: text)
        else
          .ok (.float (Binary64.zero negative), text.dropWhile fun c => (digit? c).isSome)
where
  /-- The exponent is complete. -/
  finish (exponent : Nat) (rest : List Char) : Reading Number :=
    floatOfParts negative significand (if down then before - exponent else before + exponent) rest

/-- An exponent whose letter has been read. -/
def readExponent (negative : Bool) (significand : Nat) (before : Int) (text : List Char) :
    Reading Number :=
  let (down, text) :=
    match text with
    | '+' :: rest => (false, rest)
    | '-' :: rest => (true, rest)
    | text => (false, text)
  match text with
  | [] => stopBefore .endOfText []
  | c :: rest =>
    match digit? c with
    | some d => readExponentDigits negative significand before down d rest
    | none => stopAt .invalidNumber (c :: rest)

/-- The end of a number that is not whole: an exponent may follow. -/
def readScale (negative : Bool) (significand : Nat) (exponent : Int) : List Char → Reading Number
  | [] => floatOfParts negative significand exponent []
  | c :: text =>
    if c = 'e' ∨ c = 'E' then readExponent negative significand exponent text
    else floatOfParts negative significand exponent (c :: text)

/-- The digits after a decimal point; those that no longer fit into 64 bits are dropped.  The
flag tells that one has been read. -/
def readFraction (negative : Bool) (some? : Bool) (significand : Nat) (exponent : Int) :
    List Char → Reading Number
  | [] =>
    if some? then readScale negative significand exponent [] else stopBefore .endOfText []
  | c :: text =>
    match digit? c with
    | some d =>
      match appendDigit? 18446744073709551616 significand d with
      | some significand => readFraction negative true significand (exponent - 1) text
      | none =>
        readScale negative significand exponent (text.dropWhile fun c => (digit? c).isSome)
    | none =>
      if some? then readScale negative significand exponent (c :: text)
      else stopAt .invalidNumber (c :: text)

/-- The digits of a whole number that no longer fit into 64 bits: each one raises the exponent. -/
def readLongWhole (negative : Bool) (significand : Nat) : Int → List Char → Reading Number
  | exponent, [] => floatOfParts negative significand exponent []
  | exponent, c :: text =>
    if (digit? c).isSome then readLongWhole negative significand (exponent + 1) text
    else if c = '.' then readFraction negative false significand exponent text
    else readScale negative significand exponent (c :: text)

/-- A whole number, which is a float if it is too large or a negative zero. -/
def wholeNumber (negative : Bool) (significand : Nat) (rest : List Char) : Reading Number :=
  let n : Int := if negative then -significand else significand
  match if negative ∧ significand = 0 then none else Number.ofInt? n with
  | some n => .ok (n, rest)
  | none =>
    match Binary64.ofInt? significand with
    | some x => .ok (.float (if negative then x.negate else x), rest)
    | none => stopBefore .numberOutOfRange rest

/-- A number whose first digits have been read. -/
def readNumberFrom (negative : Bool) : Nat → List Char → Reading Number
  | significand, [] => wholeNumber negative significand []
  | significand, c :: text =>
    match digit? c with
    | some d =>
      match appendDigit? 18446744073709551616 significand d with
      | some significand => readNumberFrom negative significand text
      | none => readLongWhole negative significand 1 text
    | none =>
      if c = '.' then readFraction negative false significand 0 text
      else if c = 'e' ∨ c = 'E' then readExponent negative significand 0 text
      else wholeNumber negative significand (c :: text)

/-- A number whose sign has been read; a leading zero stands alone. -/
def readUnsigned (negative : Bool) : List Char → Reading Number
  | [] => stopBefore .endOfText []
  | c :: text =>
    match digit? c with
    | none => stopAt .invalidNumber (c :: text)
    | some 0 =>
      match text with
      | [] => readNumberFrom negative 0 []
      | d :: text =>
        if (digit? d).isSome then stopAt .invalidNumber (d :: text)
        else readNumberFrom negative 0 (d :: text)
    | some n => readNumberFrom negative n text

/-! ## Arrays, objects and documents -/

/-- The items of an array up to its closing bracket.  The reader of an item comes first, then a
list no shorter than the text, which bounds the number of items, then the items read so far, last
one first. -/
def readItems (item : List Char → Reading Value) :
    List Char → List Value → List Char → Reading (List Value)
  | [], _, text => stopAt .endOfArray text
  | _ :: bound, done, text =>
    (item text).andThen fun v text =>
    match skipBlanks text with
    | [] => stopAt .endOfArray []
    | c :: text =>
      if c = ']' then .ok ((v :: done).reverse, text)
      else if c = ',' then
        match skipBlanks text with
        | [] => stopAt .endOfText []
        | ']' :: text => stopAt .trailingComma (']' :: text)
        | text => readItems item bound (v :: done) text
      else stopAt .expectedCommaOrBracket (c :: text)

/-- A key and the colon behind it, from the opening quote on. -/
def readKey (text : List Char) : Reading String :=
  match text with
  | '"' :: text =>
    (readString text).andThen fun key text =>
    match skipBlanks text with
    | [] => stopAt .endOfObject []
    | ':' :: text => .ok (key, text)
    | text => stopAt .expectedColon text
  | text => stopAt .keyMustBeString text

/-- The members of an object up to its closing brace, in the manner of `readItems`. -/
def readMembers (item : List Char → Reading Value) :
    List Char → List (String × Value) → List Char → Reading (List (String × Value))
  | [], _, text => stopAt .endOfObject text
  | _ :: bound, done, text =>
    (readKey text).andThen fun key text =>
    (item text).andThen fun v text =>
    match skipBlanks text with
    | [] => stopAt .endOfObject []
    | c :: text =>
      if c = '\x7d' then .ok (((key, v) :: done).reverse, text)
      else if c = ',' then
        match skipBlanks text with
        | [] => stopAt .endOfText []
        | '\x7d' :: text => stopAt .trailingComma ('\x7d' :: text)
        | text => readMembers item bound ((key, v) :: done) text
      else stopAt .expectedCommaOrBrace (c :: text)

/-- A value that is neither an array nor an object, with its first character apart. -/
def readScalar (c : Char) (text : List Char) : Reading Value :=
  if c = 'n' then readIdent .null ['u', 'l', 'l'] text
  else if c = 't' then readIdent (.bool true) ['r', 'u', 'e'] text
  else if c = 'f' then readIdent (.bool false) ['a', 'l', 's', 'e'] text
  else if c = '"' then (readString text).map .string
  else if c = '-' then (readUnsigned true text).map .number
  else if (digit? c).isSome then (readUnsigned false (c :: text)).map .number
  else stopAt .expectedValue (c :: text)

/-- A value with at most the given number of levels of nesting. -/
def readValue : Nat → List Char → Reading Value
  | depth, text =>
    match skipBlanks text with
    | [] => stopAt .endOfText []
    | c :: text =>
      if c = '[' then
        match depth with
        | 0 => stopAt .nestedTooDeeply (c :: text)
        | depth + 1 =>
          match skipBlanks text with
          | [] => stopAt .endOfArray []
          | ']' :: text => .ok (.array [], text)
          | text => (readItems (readValue depth) text [] text).map .array
      else if c = '\x7b' then
        match depth with
        | 0 => stopAt .nestedTooDeeply (c :: text)
        | depth + 1 =>
          match skipBlanks text with
          | [] => stopAt .endOfObject []
          | '\x7d' :: text => .ok (.object [], text)
          | text => (readMembers (readValue depth) text [] text).map .object
      else readScalar c text

/-- The value of a whole text, with duplicate keys kept apart. -/
def readDocument (text : List Char) : Except Stop Value := do
  let (v, rest) ← readValue depthLimit text
  match skipBlanks rest with
  | [] => return v
  | rest => stopAt .trailingCharacters rest

namespace Value

/-- The value of a text, with duplicate keys kept apart. -/
def readVerbatim (text : String) : Except Fault Value :=
  (readDocument text.toList).mapError (·.fault text.toList)

/-- The value of a text. -/
def read (text : String) : Except Fault Value :=
  (readVerbatim text).map mergeDuplicates

end Value
end Schemata.Json
