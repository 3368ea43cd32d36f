import Schemata.Pointer
import Schemata.Proofs.Name

/-!
# Reading pointers back

The text of a pointer is cut at its slashes, and in every segment `~1` is decoded before `~0`.
Since a segment is written without slashes, and a tilde in it is always followed by its code, every
pointer is read back from its text, and different pointers have different texts.
-/

namespace Schemata
namespace Pointer

variable {code c a b : Char} {rest : List Char}

/-! ## Decoding -/

/-- The text with a character in the place of every tilde that a code follows, and of that code. -/
def decode (code c : Char) : List Char → List Char
  | a :: b :: rest =>
    if a = '~' ∧ b = code then c :: decode code c rest else a :: decode code c (b :: rest)
  | text => text

/-- The text of a segment, decoded. -/
def unescape (text : List Char) : List Char :=
  decode '0' '~' (decode '1' '/' text)

/-- The pointer that a text spells. -/
def read? (text : String) : Option Pointer :=
  match text.toList with
  | '#' :: rest =>
    match Text.splitAt '/' rest with
    | [] :: segments => some (segments.map fun segment => String.ofList (unescape segment))
    | _ => none
  | _ => none

theorem decode_code : decode code c ('~' :: code :: rest) = c :: decode code c rest := by
  rw [decode, if_pos ⟨rfl, rfl⟩]

theorem decode_cons_cons_of_ne (h : b ≠ code) :
    decode code c (a :: b :: rest) = a :: decode code c (b :: rest) := by
  rw [decode, if_neg fun hboth => h hboth.2]

theorem decode_cons_of_ne (h : a ≠ '~') : decode code c (a :: rest) = a :: decode code c rest := by
  cases rest with
  | nil => rfl
  | cons b rest => rw [decode, if_neg fun hboth => h hboth.1]

/-! ## Segments -/

/-- A character inside a segment of which only the tildes are escaped. -/
def escapeTilde (c : Char) : List Char :=
  if c = '~' then ['~', '0'] else [c]

theorem decode_slash (segment : List Char) :
    decode '1' '/' (segment.flatMap escapeChar) = segment.flatMap escapeTilde := by
  induction segment with
  | nil => rfl
  | cons a rest ih =>
    rw [List.flatMap_cons, List.flatMap_cons, ← ih, escapeChar, escapeTilde]
    by_cases htilde : a = '~'
    · subst htilde
      rw [if_pos rfl, if_pos rfl]
      -- the tilde's own code is no slash's, and starts none
      exact (decode_cons_cons_of_ne (by decide)).trans
        (congrArg ('~' :: ·) (decode_cons_of_ne (by decide)))
    · rw [if_neg htilde, if_neg htilde]
      by_cases hslash : a = '/'
      · subst hslash
        exact decode_code
      · rw [if_neg hslash]
        exact decode_cons_of_ne htilde

theorem decode_tilde (segment : List Char) :
    decode '0' '~' (segment.flatMap escapeTilde) = segment := by
  induction segment with
  | nil => rfl
  | cons a rest ih =>
    rw [List.flatMap_cons, escapeTilde]
    by_cases htilde : a = '~'
    · subst htilde
      rw [if_pos rfl]
      exact decode_code.trans (congrArg ('~' :: ·) ih)
    · rw [if_neg htilde]
      exact (decode_cons_of_ne htilde).trans (congrArg (a :: ·) ih)

@[simp] theorem unescape_escape (segment : List Char) :
    unescape (segment.flatMap escapeChar) = segment := by
  rw [unescape, decode_slash, decode_tilde]

theorem slash_not_mem_escape (segment : List Char) : '/' ∉ segment.flatMap escapeChar := by
  rw [List.mem_flatMap]
  rintro ⟨a, -, ha⟩
  unfold escapeChar at ha
  split at ha
  · simp at ha
  · split at ha
    · simp at ha
    · case isFalse hslash => exact hslash (List.mem_singleton.mp ha).symm

/-! ## Whole pointers -/

theorem append_segments (first : List Char) (p : Pointer) :
    first ++ p.flatMap segmentChars =
      ['/'].intercalate (first :: p.map fun segment => segment.toList.flatMap escapeChar) := by
  induction p generalizing first with
  | nil => rw [List.flatMap_nil, List.map_nil, List.intercalate_singleton, List.append_nil]
  | cons segment p ih =>
    rw [List.map_cons, List.intercalate_cons_of_ne_nil (List.cons_ne_nil _ _), ← ih,
      List.flatMap_cons, segmentChars, List.append_assoc]
    rfl

theorem splitAt_segments (p : Pointer) :
    Text.splitAt '/' (p.flatMap segmentChars) =
      [] :: p.map fun segment => segment.toList.flatMap escapeChar := by
  have hsegments := append_segments [] p
  rw [List.nil_append] at hsegments
  rw [hsegments, Text.splitAt_eq_splitOn]
  refine List.splitOn_intercalate '/' (List.forall_mem_cons.mpr ⟨by simp, ?_⟩) (by simp)
  intro part hpart
  obtain ⟨segment, -, rfl⟩ := List.mem_map.mp hpart
  exact slash_not_mem_escape segment.toList

/-- Every pointer is read back from its text. -/
@[simp] theorem read?_text (p : Pointer) : read? p.text = some p := by
  rw [read?, text, String.toList_ofList]
  simp only [splitAt_segments, List.map_map, Option.some.injEq]
  refine (List.map_congr_left fun segment _ => ?_).trans (List.map_id p)
  rw [Function.comp_apply, unescape_escape, String.ofList_toList, id]

example : read? "#/properties/~01~1" = some ["properties", "~1/"] := by decide +kernel

/-- Different pointers have different texts. -/
theorem text_injective : Function.Injective text := by
  intro p q h
  have hread := congrArg read? h
  rwa [read?_text, read?_text, Option.some.injEq] at hread

end Pointer
end Schemata
