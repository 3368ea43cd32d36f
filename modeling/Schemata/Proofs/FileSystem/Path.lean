import Mathlib.Data.List.DropRight
import Mathlib.Data.List.Infix
import Schemata.FileSystem.Path
import Schemata.Proofs.Name

/-!
# Parts of paths

Only some parts of a path lead anywhere.  The path above a path has these parts but the last one,
and its text is the front of the path's text.  A path joined with a name has the parts of both.
-/

namespace Schemata.Path

variable {p above : Path} {parts front : List String} {part last name : String}

/-- The parts that lead anywhere. -/
def moving (parts : List String) : List String :=
  parts.filter fun part => !isIdle part

/-- The parts of a path that lead anywhere. -/
def names (p : Path) : List String :=
  moving p.parts

@[simp] theorem moving_nil : moving [] = [] :=
  rfl

theorem moving_append : moving (front ++ parts) = moving front ++ moving parts :=
  List.filter_append front parts

theorem moving_cons_of_isIdle (h : isIdle part = true) : moving (part :: parts) = moving parts :=
  List.filter_cons_of_neg (by simp [h])

theorem moving_cons_of_not_isIdle (h : isIdle part = false) :
    moving (part :: parts) = part :: moving parts :=
  List.filter_cons_of_pos (by simp [h])

theorem moving_eq_self (h : ∀ part ∈ parts, isIdle part = false) : moving parts = parts :=
  List.filter_eq_self.mpr fun part hpart => by simp [h part hpart]

theorem moving_eq_nil (h : ∀ part ∈ parts, isIdle part = true) : moving parts = [] :=
  List.filter_eq_nil_iff.mpr fun part hpart => by simp [h part hpart]

theorem moving_concat (h : isIdle last = false) :
    moving (front ++ [last]) = moving front ++ [last] := by
  rw [moving_append, moving_cons_of_not_isIdle h, moving_nil]

theorem ofList_eq_iff {s : List Char} {text : String} :
    String.ofList s = text ↔ s = text.toList := by
  rw [← String.toList_inj, String.toList_ofList]

theorem isIdle_ofList {s : List Char} (hempty : s ≠ []) (hpoint : s ≠ ['.']) :
    isIdle (String.ofList s) = false := by
  have h1 : String.ofList s ≠ "" := fun h => hempty (ofList_eq_iff.mp h)
  have h2 : String.ofList s ≠ "." := fun h => hpoint (ofList_eq_iff.mp h)
  simp [isIdle, h1, h2]

/-! ## Without idle parts at the end -/

theorem trimEnd_isPrefix (parts : List String) : trimEnd parts <+: parts :=
  List.rdropWhile_prefix isIdle parts

theorem trimEnd_eq_nil : trimEnd parts = [] ↔ ∀ part ∈ parts, isIdle part = true :=
  List.rdropWhile_eq_nil_iff

/-- Parts that lead nowhere may be dropped from the end. -/
theorem moving_rdropWhile {dropped : String → Bool}
    (h : ∀ part, dropped part = true → isIdle part = true) :
    moving (parts.rdropWhile dropped) = moving parts := by
  induction parts using List.reverseRecOn with
  | nil => rfl
  | append_singleton front last ih =>
    by_cases hlast : dropped last = true
    · rw [List.rdropWhile_concat_pos dropped _ _ hlast, ih, moving_append,
        moving_cons_of_isIdle (h last hlast), moving_nil, List.append_nil]
    · rw [List.rdropWhile_concat_neg dropped _ _ hlast]

theorem moving_trimEnd : moving (trimEnd parts) = moving parts :=
  moving_rdropWhile fun _ h => h

theorem trimEnd_eq_nil_or_concat (parts : List String) :
    trimEnd parts = [] ∨ ∃ front last, trimEnd parts = front ++ [last] ∧ isIdle last = false := by
  rcases List.eq_nil_or_concat' (trimEnd parts) with h | ⟨front, last, h⟩
  · exact Or.inl h
  · refine Or.inr ⟨front, last, h, ?_⟩
    have hne : trimEnd parts ≠ [] := by simp [h]
    have hlast := List.rdropWhile_last_not isIdle parts hne
    simpa only [show List.rdropWhile isIdle parts = front ++ [last] from h, List.getLast_concat,
      Bool.not_eq_true] using hlast

/-- An idle last part is only there if no part leads anywhere. -/
def Trimmed (p : Path) : Prop :=
  p.names = [] ∨ ∃ front last, p.parts = front ++ [last] ∧ isIdle last = false

theorem trimmed_trimEnd (parts : List String) : Trimmed ⟨trimEnd parts⟩ :=
  (trimEnd_eq_nil_or_concat parts).imp (congrArg moving) id

theorem Trimmed.cons (h : Trimmed ⟨parts⟩) (hpart : isIdle part = true) :
    Trimmed ⟨part :: parts⟩ := by
  rcases h with h | ⟨front, last, h, hlast⟩
  · exact Or.inl ((moving_cons_of_isIdle hpart).trans h)
  · exact Or.inr ⟨part :: front, last, congrArg (part :: ·) h, hlast⟩

/-! ## Texts -/

theorem text_prefix (h : front <+: parts) : (text ⟨front⟩).toList <+: (text ⟨parts⟩).toList := by
  obtain ⟨rest, rfl⟩ := h
  by_cases hfront : front = []
  · subst hfront
    exact List.nil_prefix
  · by_cases hrest : rest = []
    · rw [hrest, List.append_nil]
    · rw [text, text, String.intercalate_append_of_ne_nil hfront hrest, String.append_assoc,
        String.toList_append]
      exact List.prefix_append _ _

/-! ## The path above -/

/-- What the path above a path is like. -/
structure IsAbove (above p : Path) : Prop where
  names : above.names = p.names.dropLast
  trimmed : Trimmed above
  isAbsolute : above.isAbsolute = p.isAbsolute
  text : above.text.toList <+: p.text.toList
  ne_nil : above.parts ≠ []

theorem isAbsolute_cons : isAbsolute ⟨part :: parts⟩ = (part = "" && parts ≠ []) := by
  unfold isAbsolute
  cases parts with
  | nil => simp
  | cons second rest =>
    by_cases h : part = ""
    · subst h
      simp
    · simp [h]

theorem isAbsolute_of_head (h : ∀ part ∈ parts.head?, part ≠ "") : isAbsolute ⟨parts⟩ = false := by
  cases parts with
  | nil => rfl
  | cons part parts => simp [isAbsolute_cons, h part rfl]

theorem moving_dropLast_trimEnd : moving (trimEnd parts).dropLast = (moving parts).dropLast := by
  have hmoving : moving (trimEnd parts) = moving parts := moving_trimEnd
  rw [← hmoving]
  rcases trimEnd_eq_nil_or_concat parts with h | ⟨front, last, h, hlast⟩
  · rw [h, List.dropLast_nil, moving_nil, List.dropLast_nil]
  · rw [h, List.dropLast_concat, moving_concat hlast, List.dropLast_concat]

theorem dropLast_trimEnd_isPrefix (parts : List String) :
    trimEnd (trimEnd parts).dropLast <+: parts :=
  (trimEnd_isPrefix _).trans ((List.dropLast_prefix _).trans (trimEnd_isPrefix parts))

/-- A leading slash is the start of every absolute path. -/
theorem slash_prefix (h : parts ≠ []) :
    (text ⟨["", ""]⟩).toList <+: (text ⟨"" :: parts⟩).toList := by
  rw [text, text, String.intercalate_cons_of_ne_nil h]
  simp

theorem moving_kept :
    moving (trimEnd (trimEnd parts).dropLast) = (moving parts).dropLast := by
  rw [moving_trimEnd, moving_dropLast_trimEnd]

/-- Above an absolute path. -/
theorem isAbove_slash (hparts : parts ≠ []) :
    IsAbove ⟨"" :: if (trimEnd (trimEnd parts).dropLast).isEmpty then [""]
      else trimEnd (trimEnd parts).dropLast⟩ ⟨"" :: parts⟩ := by
  have hmoving : moving (trimEnd (trimEnd parts).dropLast) = (moving parts).dropLast := moving_kept
  by_cases hnil : trimEnd (trimEnd parts).dropLast = []
  · rw [hnil] at hmoving
    simp only [hnil, List.isEmpty_nil, if_true]
    exact ⟨hmoving, Or.inl rfl, by simp [isAbsolute_cons, hparts], slash_prefix hparts, by simp⟩
  · simp only [List.isEmpty_iff, hnil, if_false]
    exact ⟨hmoving, (trimmed_trimEnd _).cons rfl, by simp [isAbsolute_cons, hparts, hnil],
      text_prefix (List.cons_prefix_cons.mpr ⟨rfl, dropLast_trimEnd_isPrefix parts⟩), by simp⟩

/-- Above a path that starts at a point. -/
theorem isAbove_point :
    IsAbove ⟨"." :: trimEnd (trimEnd parts).dropLast⟩ ⟨"." :: parts⟩ :=
  ⟨moving_kept, (trimmed_trimEnd _).cons rfl, by simp [isAbsolute_cons],
    text_prefix (List.cons_prefix_cons.mpr ⟨rfl, dropLast_trimEnd_isPrefix parts⟩), by simp⟩

/-- Above any other path. -/
theorem isAbove_relative (hslash : ∀ rest, parts ≠ "" :: rest) :
    IsAbove ⟨if (trimEnd (trimEnd parts).dropLast).isEmpty then [""]
      else trimEnd (trimEnd parts).dropLast⟩ ⟨parts⟩ := by
  have hrelative : ∀ front, front <+: parts → isAbsolute ⟨front⟩ = false := by
    rintro front ⟨more, rfl⟩
    refine isAbsolute_of_head fun part hpart heq => ?_
    obtain ⟨rest, rfl⟩ := List.head?_eq_some_iff.mp hpart
    exact hslash (rest ++ more) (by rw [heq, List.cons_append])
  have hmoving : moving (trimEnd (trimEnd parts).dropLast) = (moving parts).dropLast := moving_kept
  have hstarts := dropLast_trimEnd_isPrefix parts
  by_cases hnil : trimEnd (trimEnd parts).dropLast = []
  · rw [hnil] at hmoving
    simp only [hnil, List.isEmpty_nil, if_true]
    exact ⟨hmoving, Or.inl rfl, (hrelative parts List.prefix_rfl).symm, List.nil_prefix, by simp⟩
  · simp only [List.isEmpty_iff, hnil, if_false]
    refine ⟨hmoving, trimmed_trimEnd _, ?_, text_prefix hstarts, hnil⟩
    rw [hrelative _ hstarts, hrelative parts List.prefix_rfl]

theorem isAbove_of_parent? (h : p.parent? = some above) : IsAbove above p := by
  obtain ⟨parts⟩ := p
  unfold parent? at h
  simp only at h
  split at h
  · case h_1 rest =>
    split at h
    · simp at h
    · case h_2 hkept =>
      obtain rfl := Option.some.inj h
      refine isAbove_slash ?_
      rintro rfl
      exact hkept rfl
  · case h_2 rest =>
    split at h
    · case h_1 hnil =>
      obtain rfl := Option.some.inj h
      have hmoving : moving rest = [] := moving_eq_nil (trimEnd_eq_nil.mp hnil)
      refine ⟨?_, Or.inl rfl, by simp [isAbsolute_cons], List.nil_prefix, by simp⟩
      change [] = (moving ("." :: rest)).dropLast
      rw [moving_cons_of_isIdle rfl, hmoving, List.dropLast_nil]
    · obtain rfl := Option.some.inj h
      exact isAbove_point
  · case h_3 hslash hpoint =>
    split at h
    · simp at h
    · obtain rfl := Option.some.inj h
      exact isAbove_relative hslash

theorem exists_parent? (h : p.names ≠ []) : ∃ above, p.parent? = some above := by
  obtain ⟨parts⟩ := p
  unfold parent?
  simp only
  split
  · case h_1 rest =>
    split
    · case h_1 hnil => exact absurd (moving_eq_nil (trimEnd_eq_nil.mp hnil)) h
    · exact ⟨_, rfl⟩
  · case h_2 rest =>
    split
    · exact ⟨_, rfl⟩
    · exact ⟨_, rfl⟩
  · split
    · case h_1 hnil => exact absurd (moving_eq_nil (trimEnd_eq_nil.mp hnil)) h
    · exact ⟨_, rfl⟩

/-! ## Names below a path -/

theorem parts_ofText : (ofText name).parts = (Name.segments name.toList).map String.ofList :=
  rfl

theorem parts_ofText_of_not_mem (h : '/' ∉ name.toList) : (ofText name).parts = [name] := by
  rw [parts_ofText, Name.segments, Text.splitAt_eq_splitOn, List.splitOn_eq_singleton h]
  simp

/-- The parts of a text make up the text. -/
theorem text_ofText : (ofText name).text = name := by
  apply String.toList_inj.mp
  rw [text, String.toList_intercalate, parts_ofText, List.map_map, Name.segments,
    Text.splitAt_eq_splitOn]
  have hid : String.toList ∘ String.ofList = id := funext fun _ => String.toList_ofList
  rw [hid, List.map_id]
  exact List.intercalate_splitOn '/'

theorem parts_ofText_ne_nil : (ofText name).parts ≠ [] := by
  rw [parts_ofText, Name.segments, Text.splitAt_eq_splitOn]
  simp

/-- The parts of a path joined with a name are those of the name behind those that the path
leads with. -/
def leading (p : Path) : List String :=
  if p.parts.getLast? = some "" then p.parts.dropLast else p.parts

theorem parts_join : (p.join name).parts = p.leading ++ (ofText name).parts := by
  unfold join leading
  split
  · rfl
  · rfl

theorem moving_leading : moving p.leading = p.names := by
  unfold leading names
  split
  · case isTrue h =>
    obtain ⟨front, h⟩ := List.getLast?_eq_some_iff.mp h
    rw [h, List.dropLast_concat, moving_append, moving_cons_of_isIdle rfl, moving_nil,
      List.append_nil]
  · rfl

theorem names_join : (p.join name).names = p.names ++ (ofText name).names := by
  rw [names, parts_join, moving_append, moving_leading, names, names]

/-- A path joined with a relative name starts where the path starts. -/
theorem isAbsolute_join (hname : (ofText name).isAbsolute = false) :
    (p.join name).isAbsolute = p.isAbsolute := by
  obtain ⟨parts⟩ := p
  have hne : (ofText name).parts ≠ [] := parts_ofText_ne_nil
  change isAbsolute ⟨(join ⟨parts⟩ name).parts⟩ = _
  rw [parts_join]
  unfold leading
  split
  · case isTrue h =>
    obtain ⟨front, h⟩ := List.getLast?_eq_some_iff.mp h
    simp only at h
    subst h
    rw [List.dropLast_concat]
    cases front with
    | nil => simpa [isAbsolute_cons] using hname
    | cons first front => simp [isAbsolute_cons, hne]
  · case isFalse h =>
    cases parts with
    | nil => exact hname
    | cons first rest =>
      by_cases hrest : rest = []
      · subst hrest
        have hfirst : first ≠ "" := by simpa using h
        simp [isAbsolute_cons, hfirst]
      · simp [isAbsolute_cons, hne, hrest]

/-- The text of a path joined with a name ends in the name. -/
theorem exists_text_join (p : Path) :
    ∃ before, ∀ name : String, (p.join name).text = before ++ name := by
  by_cases hnil : p.leading = []
  · refine ⟨"", fun name => ?_⟩
    rw [String.empty_append, text, parts_join, hnil, List.nil_append]
    exact text_ofText
  · refine ⟨String.intercalate "/" p.leading ++ "/", fun name => ?_⟩
    rw [text, parts_join, String.intercalate_append_of_ne_nil hnil parts_ofText_ne_nil]
    exact congrArg (_ ++ ·) text_ofText

/-- Every part that leads anywhere takes a byte, and another one for the slash. -/
theorem length_moving_le (parts : List String) :
    2 * (moving parts).length ≤ (text ⟨parts⟩).utf8ByteSize + 1 := by
  induction parts with
  | nil => simp
  | cons part parts ih =>
    have hpart : isIdle part = false → 1 ≤ part.utf8ByteSize := by
      intro h
      refine Nat.pos_of_ne_zero fun hzero => ?_
      simp [isIdle, String.utf8ByteSize_eq_zero_iff.mp hzero] at h
    have hmoving : (moving (part :: parts)).length ≤
        part.utf8ByteSize + (moving parts).length ∧
          (moving (part :: parts)).length ≤ (moving parts).length + 1 := by
      cases h : isIdle part with
      | true =>
        rw [moving_cons_of_isIdle h]
        omega
      | false =>
        have := hpart h
        rw [moving_cons_of_not_isIdle h, List.length_cons]
        omega
    by_cases hnil : parts = []
    · subst hnil
      have htext : text ⟨[part]⟩ = part := by simp [text]
      rw [htext]
      simp only [moving_nil, List.length_nil] at hmoving
      omega
    · have htext : (text ⟨part :: parts⟩).utf8ByteSize =
          part.utf8ByteSize + 1 + (text ⟨parts⟩).utf8ByteSize := by
        rw [text, String.intercalate_cons_of_ne_nil hnil, String.utf8ByteSize_append,
          String.utf8ByteSize_append]
        rfl
      omega

end Schemata.Path
