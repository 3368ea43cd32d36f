/-!
# Decoding UTF-8

`decode` reads bytes as text.  A failure names the first byte that starts no complete character:
either a sequence of one to three bytes is wrong, whatever follows, or the bytes end too early.
-/

namespace Schemata.Utf8

/-- What is wrong at the first byte that cannot be decoded. -/
inductive Fault where
  | invalid (length index : Nat)
  | incomplete (index : Nat)
  deriving DecidableEq, Repr

/-- The wording of a fault. -/
def Fault.message : Fault → String
  | invalid length index =>
    "invalid utf-8 sequence of " ++ Nat.repr length ++ " bytes from index " ++ Nat.repr index
  | incomplete index => "incomplete utf-8 byte sequence from index " ++ Nat.repr index

/-- The least and the greatest second byte that may follow each first byte, and the length of the
sequence it starts. -/
def leadRange? (b : UInt8) : Option (UInt8 × UInt8 × Nat) :=
  if b < 0x80 then some (0x80, 0xBF, 1)
  else if b < 0xC2 then none
  else if b < 0xE0 then some (0x80, 0xBF, 2)
  else if b = 0xE0 then some (0xA0, 0xBF, 3)
  else if b = 0xED then some (0x80, 0x9F, 3)
  else if b < 0xF0 then some (0x80, 0xBF, 3)
  else if b = 0xF0 then some (0x90, 0xBF, 4)
  else if b < 0xF4 then some (0x80, 0xBF, 4)
  else if b = 0xF4 then some (0x80, 0x8F, 4)
  else none

/-- Bytes after the second one of a sequence. -/
def isContinuation (b : UInt8) : Bool :=
  0x80 ≤ b && b ≤ 0xBF

/-- The length of the sequence at the front of the bytes, or its fault: `none` when the bytes end
too early, otherwise the number of bytes that are wrong together. -/
def sequenceLength : List UInt8 → Except (Option Nat) Nat
  | [] => .error none
  | b :: rest =>
    match leadRange? b with
    | none => .error (some 1)
    | some (_, _, 1) => .ok 1
    | some (low, high, length) =>
      match rest with
      | [] => .error none
      | second :: rest =>
        if second < low ∨ high < second then .error (some 1)
        else continue_ 2 (length - 2) rest
where
  /-- The bytes after the second one. -/
  continue_ (done : Nat) : Nat → List UInt8 → Except (Option Nat) Nat
    | 0, _ => .ok done
    | _ + 1, [] => .error none
    | missing + 1, b :: rest =>
      if isContinuation b then continue_ (done + 1) missing rest else .error (some done)

/-- The first fault at or after an index; the first argument counts bytes of a sequence already
checked. -/
def firstFault : Nat → Nat → List UInt8 → Option Fault
  | _, _, [] => none
  | skip + 1, index, _ :: rest => firstFault skip (index + 1) rest
  | 0, index, b :: rest =>
    match sequenceLength (b :: rest) with
    | .ok length => firstFault (length - 1) (index + 1) rest
    | .error (some length) => some (.invalid length index)
    | .error none => some (.incomplete index)

/-- The text of the bytes, or the first fault in them. -/
def decode (bytes : ByteArray) : Except Fault String :=
  match String.fromUTF8? bytes with
  | some text => .ok text
  | none => .error ((firstFault 0 0 bytes.toList).getD (.incomplete bytes.size))

end Schemata.Utf8
