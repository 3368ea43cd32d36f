import Schemata.Proofs.Name.Below

/-!
# The form of normal names

The segments that a name keeps climb at first and then go down, and from the root nothing climbs.
This is all that taking segments in ensures, and segments of this shape are kept as they are.  So a
name is its own normal form exactly if its text has the shape, segment by segment.
-/

namespace Schemata.Name

variable {name : List Char} {kept ss : List Segment} {s : Segment} {absolute : Bool}

/-! ## Climbing and going down -/

/-- Segments, last one first, that climb at first and then go down; nothing is above the root. -/
def Climbs (absolute : Bool) (kept : List Segment) : Prop :=
  ∃ climbs down, kept = down ++ List.replicate climbs parent ∧ (∀ s ∈ down, Down s) ∧
    (absolute = true → climbs = 0)

theorem Climbs.nil : Climbs absolute [] :=
  ⟨0, [], rfl, by simp, fun _ => rfl⟩

theorem Climbs.push (h : Climbs absolute kept) (hs : '/' ∉ s) :
    Climbs absolute (push absolute kept s) := by
  obtain ⟨climbs, down, rfl, hdown, habsolute⟩ := h
  by_cases hidle : s = [] ∨ s = ['.']
  · rw [push_of_empty hidle]
    exact ⟨climbs, down, rfl, hdown, habsolute⟩
  by_cases hparent : s = parent
  · subst hparent
    rw [push_parent]
    cases down with
    | cons top down =>
      rw [List.forall_mem_cons] at hdown
      simp only [List.cons_append, if_pos hdown.1.parent]
      exact ⟨climbs, down, rfl, hdown.2, habsolute⟩
    | nil =>
      cases absolute with
      | true =>
        obtain rfl := habsolute rfl
        exact ⟨0, [], rfl, hdown, fun _ => rfl⟩
      | false =>
        refine ⟨climbs + 1, [], ?_, hdown, by simp⟩
        cases climbs with
        | zero => rfl
        | succ climbs => simp [List.replicate_succ]
  · rw [push_of_ne hidle hparent]
    refine ⟨climbs, s :: down, rfl, List.forall_mem_cons.mpr ⟨?_, hdown⟩, habsolute⟩
    exact ⟨hs, fun h => hidle (Or.inl h), fun h => hidle (Or.inr h), hparent⟩

theorem Climbs.foldl (h : Climbs absolute kept) (hss : ∀ s ∈ ss, '/' ∉ s) :
    Climbs absolute (ss.foldl (Name.push absolute) kept) := by
  apply List.foldlRecOn ss _ h
  intro kept hclimbs s hs
  exact hclimbs.push (hss s hs)

/-- The segments without the last one climb and go down too. -/
theorem Climbs.tail (h : Climbs absolute kept) : Climbs absolute kept.tail := by
  obtain ⟨climbs, down, rfl, hdown, habsolute⟩ := h
  cases down with
  | nil =>
    refine ⟨climbs - 1, [], by simp, hdown, ?_⟩
    intro h
    rw [habsolute h]
  | cons top down =>
    rw [List.forall_mem_cons] at hdown
    exact ⟨climbs, down, rfl, hdown.2, habsolute⟩

theorem foldl_push_replicate (climbs : Nat) :
    (List.replicate climbs parent).foldl (push false) [] = List.replicate climbs parent := by
  induction climbs with
  | zero => rfl
  | succ climbs ih =>
    rw [List.replicate_succ', List.foldl_append, ih, List.foldl_cons, List.foldl_nil, push_parent,
      ← List.replicate_succ']
    cases climbs with
    | zero => rfl
    | succ climbs => simp [List.replicate_succ]

/-- Segments that climb at first and then go down are kept. -/
theorem Climbs.isKept (h : Climbs absolute kept) : Kept absolute kept := by
  obtain ⟨climbs, down, rfl, hdown, habsolute⟩ := h
  constructor
  · intro s hs
    rcases List.mem_append.mp hs with hs | hs
    · exact ⟨(hdown s hs).slash, (hdown s hs).nonempty, (hdown s hs).dot⟩
    · rw [List.eq_of_mem_replicate hs]
      decide
  · have hclimb : (List.replicate climbs parent).foldl (Name.push absolute) [] =
        List.replicate climbs parent := by
      cases absolute with
      | true =>
        rw [habsolute rfl]
        rfl
      | false => exact foldl_push_replicate climbs
    rw [List.reverse_append, List.reverse_replicate, List.foldl_append, hclimb,
      foldl_push_of_down fun s hs => hdown s (List.mem_reverse.mp hs), List.reverse_reverse]

theorem climbs_normalSegments (name : List Char) :
    Climbs (isAbsolute name) (normalSegments name).reverse := by
  rw [normalSegments, List.reverse_reverse]
  exact Climbs.nil.foldl fun s hs => Text.not_mem_of_mem_splitAt hs

/-- A normal name climbs at first and then goes down. -/
theorem exists_climbs (name : List Char) :
    ∃ climbs down, normalSegments name = List.replicate climbs parent ++ down ∧
      (∀ s ∈ down, Down s) ∧ (isAbsolute name = true → climbs = 0) := by
  obtain ⟨climbs, down, hkept, hdown, habsolute⟩ := climbs_normalSegments name
  refine ⟨climbs, down.reverse, ?_, fun s hs => hdown s (List.mem_reverse.mp hs), habsolute⟩
  rw [← List.reverse_reverse (normalSegments name), hkept, List.reverse_append,
    List.reverse_replicate]

/-! ## Canonical texts -/

/-- The text of a name without the slash that an absolute one starts with. -/
def body (name : List Char) : List Char :=
  if isAbsolute name then name.tail else name

/-- The segments that the text of a name shows; there is none in the empty text, and none behind
the slash of the root. -/
def bodySegments (name : List Char) : List Segment :=
  if body name = [] then [] else segments (body name)

/-- The text shows no segment that is empty or `.`, and `..` only in front, and not from the
root. -/
structure Canonical (name : List Char) : Prop where
  nonempty : [] ∉ bodySegments name
  dot : ['.'] ∉ bodySegments name
  climbs : ∃ climbs down, bodySegments name = List.replicate climbs parent ++ down ∧
    parent ∉ down ∧ (isAbsolute name = true → climbs = 0)

theorem slash_not_mem_bodySegments : ∀ s ∈ bodySegments name, '/' ∉ s := by
  intro s hs
  unfold bodySegments at hs
  split at hs
  · simp at hs
  · exact Text.not_mem_of_mem_splitAt hs

/-- The segments that a text shows make up the text. -/
theorem textOf_bodySegments (name : List Char) :
    textOf (isAbsolute name) (bodySegments name) = name := by
  have hjoined : joinSegments (bodySegments name) = body name := by
    unfold bodySegments
    split
    · case isTrue hempty =>
      rw [hempty]
      rfl
    · rw [segments, joinSegments, Text.splitAt_eq_splitOn]
      exact List.intercalate_splitOn '/'
  rw [textOf, hjoined, body]
  by_cases habsolute : isAbsolute name = true
  · rw [if_pos habsolute, if_pos habsolute]
    cases name with
    | nil => simp [isAbsolute] at habsolute
    | cons c rest =>
      have hslash : c = '/' := by simpa [isAbsolute] using habsolute
      rw [hslash, List.tail_cons]
  · rw [if_neg habsolute, if_neg habsolute]

/-- The text of segments that are kept shows these segments. -/
theorem bodySegments_textOf (h : Kept absolute ss.reverse) :
    bodySegments (textOf absolute ss) = ss := by
  have hbody : body (textOf absolute ss) = joinSegments ss := by
    rw [body, isAbsolute_textOf h]
    cases absolute <;> rfl
  rw [bodySegments, hbody]
  by_cases hne : ss = []
  · subst hne
    rfl
  · have hslash : ∀ s ∈ ss, '/' ∉ s := fun s hs => (h.proper s (List.mem_reverse.mpr hs)).1
    have hsegments := segments_joinSegments hne hslash
    have hjoined : joinSegments ss ≠ [] := by
      intro hnil
      rw [hnil] at hsegments
      have hempty : [] ∈ ss := hsegments ▸ List.mem_singleton_self []
      exact (h.proper [] (List.mem_reverse.mpr hempty)).2.1 rfl
    rw [if_neg hjoined, hsegments]

theorem bodySegments_normalizeChars (name : List Char) :
    bodySegments (normalizeChars name) = normalSegments name := by
  rw [normalizeChars_eq_textOf, bodySegments_textOf (kept_normalSegments name)]

/-- A canonical text shows segments that climb at first and then go down. -/
theorem Canonical.climbing (h : Canonical name) :
    Climbs (isAbsolute name) (bodySegments name).reverse := by
  obtain ⟨climbs, down, hsegments, hparent, habsolute⟩ := h.climbs
  refine ⟨climbs, down.reverse, ?_, ?_, habsolute⟩
  · rw [hsegments, List.reverse_append, List.reverse_replicate]
  · intro s hs
    have hmem : s ∈ bodySegments name := by
      rw [hsegments]
      exact List.mem_append_right _ (List.mem_reverse.mp hs)
    refine ⟨slash_not_mem_bodySegments s hmem, ?_, ?_, ?_⟩
    · rintro rfl
      exact h.nonempty hmem
    · rintro rfl
      exact h.dot hmem
    · rintro rfl
      exact hparent (List.mem_reverse.mp hs)

theorem canonical_normalizeChars (name : List Char) : Canonical (normalizeChars name) := by
  have hproper := (kept_normalSegments name).proper
  obtain ⟨climbs, down, hsegments, hdown, habsolute⟩ := exists_climbs name
  constructor
  · rw [bodySegments_normalizeChars]
    intro hempty
    exact (hproper [] (List.mem_reverse.mpr hempty)).2.1 rfl
  · rw [bodySegments_normalizeChars]
    intro hdot
    exact (hproper ['.'] (List.mem_reverse.mpr hdot)).2.2 rfl
  · refine ⟨climbs, down, ?_, ?_, ?_⟩
    · rw [bodySegments_normalizeChars, hsegments]
    · intro hparent
      exact (hdown parent hparent).parent rfl
    · rw [isAbsolute_normalizeChars]
      exact habsolute

theorem Canonical.normalizeChars_eq_self (h : Canonical name) : normalizeChars name = name := by
  have hsegments : normalSegments name = bodySegments name := by
    have hkept := normalSegments_textOf h.climbing.isKept
    rwa [textOf_bodySegments] at hkept
  rw [normalizeChars_eq_textOf, hsegments, textOf_bodySegments]

/-- A name is left as it is exactly if it is canonical. -/
theorem normalize_eq_self_iff {name : String} :
    normalize name = name ↔ Canonical name.toList := by
  rw [normalize, ← String.toList_inj, String.toList_ofList]
  constructor
  · intro h
    rw [← h]
    exact canonical_normalizeChars name.toList
  · exact Canonical.normalizeChars_eq_self

theorem canonical_normalize (name : String) : Canonical (normalize name).toList :=
  normalize_eq_self_iff.mp (normalize_normalize name)

end Schemata.Name
