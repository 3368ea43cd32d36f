import Schemata.Name

/-!
# Normal names

Normal segments are taken over as they are when a name is normalised again, so the normal form is
a fixed point.
-/

namespace Schemata

namespace Text

theorem splitAt_eq_splitOn (separator : Char) (text : List Char) :
    splitAt separator text = text.splitOn separator := by
  induction text with
  | nil => rfl
  | cons c rest ih =>
    have hne : rest.splitOn separator ≠ [] := List.splitOn_ne_nil separator rest
    rw [splitAt, List.splitOn_cons_eq_if_modifyHead, ih]
    by_cases hc : c = separator
    · rw [if_pos hc, if_pos (by simp [hc])]
    · rw [if_neg hc, if_neg (by simp [hc])]
      cases hparts : rest.splitOn separator with
      | nil => exact absurd hparts hne
      | cons part parts => rfl

theorem not_mem_of_mem_splitAt {separator : Char} {text part : List Char}
    (h : part ∈ splitAt separator text) : separator ∉ part := by
  induction text generalizing part with
  | nil =>
    rw [splitAt, List.mem_singleton] at h
    simp [h]
  | cons c rest ih =>
    rw [splitAt] at h
    split at h
    · rcases List.mem_cons.mp h with rfl | hrest
      · simp
      · exact ih hrest
    · case isFalse hc =>
      split at h
      · rw [List.mem_singleton] at h
        simp [h, Ne.symm hc]
      · case h_2 first parts hparts =>
        rcases List.mem_cons.mp h with rfl | hrest
        · rw [List.mem_cons, not_or]
          exact ⟨Ne.symm hc, ih (hparts ▸ List.mem_cons_self)⟩
        · exact ih (hparts ▸ List.mem_cons_of_mem _ hrest)

end Text

namespace Name

theorem push_of_empty {absolute : Bool} {kept : List Segment} {s : Segment}
    (h : s = [] ∨ s = ['.']) : push absolute kept s = kept := by
  unfold push
  rw [if_pos h]

theorem push_of_ne {absolute : Bool} {kept : List Segment} {s : Segment}
    (h : ¬ (s = [] ∨ s = ['.'])) (hs : s ≠ parent) : push absolute kept s = s :: kept := by
  unfold push
  rw [if_neg h, if_neg hs]

theorem push_parent {absolute : Bool} {kept : List Segment} :
    push absolute kept parent = match kept with
      | top :: below =>
        if top ≠ parent then below else if absolute then kept else parent :: kept
      | [] => if absolute then [] else [parent] := by
  cases kept <;> rfl

/-- Segments that are kept: they are proper segments, and taking them in again keeps them all. -/
structure Kept (absolute : Bool) (kept : List Segment) : Prop where
  proper : ∀ s ∈ kept, '/' ∉ s ∧ s ≠ [] ∧ s ≠ ['.']
  again : kept.reverse.foldl (push absolute) [] = kept

theorem Kept.nil {absolute : Bool} : Kept absolute [] :=
  ⟨by simp, rfl⟩

theorem Kept.cons {absolute : Bool} {kept : List Segment} {s : Segment} (h : Kept absolute kept)
    (hs : '/' ∉ s ∧ s ≠ [] ∧ s ≠ ['.']) (hpush : push absolute kept s = s :: kept) :
    Kept absolute (s :: kept) := by
  refine ⟨List.forall_mem_cons.mpr ⟨hs, h.proper⟩, ?_⟩
  rw [List.reverse_cons, List.foldl_append, h.again, List.foldl_cons, List.foldl_nil, hpush]

/-- The segment above may be dropped. -/
theorem Kept.below {absolute : Bool} {kept : List Segment} {s : Segment}
    (h : Kept absolute (s :: kept)) (hs : s ≠ parent) : Kept absolute kept := by
  obtain ⟨hproper, hagain⟩ := h
  rw [List.forall_mem_cons] at hproper
  refine ⟨hproper.2, ?_⟩
  rw [List.reverse_cons, List.foldl_append, List.foldl_cons, List.foldl_nil,
    push_of_ne (not_or.mpr hproper.1.2) hs] at hagain
  exact (List.cons.inj hagain).2

theorem Kept.push {absolute : Bool} {kept : List Segment} {s : Segment} (h : Kept absolute kept)
    (hs : '/' ∉ s) : Kept absolute (push absolute kept s) := by
  by_cases hskip : s = [] ∨ s = ['.']
  · rw [push_of_empty hskip]
    exact h
  · have hproper : '/' ∉ s ∧ s ≠ [] ∧ s ≠ ['.'] := ⟨hs, not_or.mp hskip⟩
    by_cases hparent : s = parent
    · subst hparent
      have hpush : Name.push absolute kept parent = _ := push_parent
      cases kept with
      | nil =>
        cases absolute with
        | true => exact h
        | false => exact h.cons hproper hpush
      | cons top below =>
        simp only at hpush
        by_cases htop : top = parent
        · rw [if_neg (not_not_intro htop)] at hpush
          cases absolute with
          | true =>
            rw [hpush, if_pos rfl]
            exact h
          | false =>
            rw [if_neg (by decide)] at hpush
            rw [hpush]
            exact h.cons hproper hpush
        · rw [hpush, if_pos htop]
          exact h.below htop
    · rw [push_of_ne hskip hparent]
      exact h.cons hproper (push_of_ne hskip hparent)

theorem Kept.foldl {absolute : Bool} {kept : List Segment} {ss : List Segment}
    (h : Kept absolute kept) (hss : ∀ s ∈ ss, '/' ∉ s) :
    Kept absolute (ss.foldl (Name.push absolute) kept) := by
  apply List.foldlRecOn ss _ h
  intro kept hkept s hs
  exact hkept.push (hss s hs)

theorem kept_normalSegments (name : List Char) :
    Kept (isAbsolute name) (normalSegments name).reverse := by
  rw [normalSegments, List.reverse_reverse]
  exact Kept.nil.foldl fun s hs => Text.not_mem_of_mem_splitAt hs

/-- The segments between slashes are recovered. -/
theorem segments_joinSegments {ss : List Segment} (hne : ss ≠ []) (hss : ∀ s ∈ ss, '/' ∉ s) :
    segments (joinSegments ss) = ss := by
  rw [segments, joinSegments, Text.splitAt_eq_splitOn]
  exact List.splitOn_intercalate '/' hss hne

theorem segments_append {name rest : List Char} :
    segments (name ++ '/' :: rest) = segments name ++ segments rest := by
  unfold segments
  rw [Text.splitAt_eq_splitOn, Text.splitAt_eq_splitOn, Text.splitAt_eq_splitOn,
    List.splitOn_append_cons_self]

theorem joinSegments_append {ss ts : List Segment} (hss : ss ≠ []) (hts : ts ≠ []) :
    joinSegments (ss ++ ts) = joinSegments ss ++ '/' :: joinSegments ts := by
  unfold joinSegments
  induction ss with
  | nil => exact absurd rfl hss
  | cons s ss ih =>
    by_cases hrest : ss = []
    · subst hrest
      rw [List.singleton_append, List.intercalate_cons_of_ne_nil hts, List.intercalate_singleton,
        List.append_assoc, List.singleton_append]
    · have hmore : ss ++ ts ≠ [] := List.append_ne_nil_of_left_ne_nil hrest ts
      rw [List.cons_append, List.intercalate_cons_of_ne_nil hmore,
        List.intercalate_cons_of_ne_nil hrest, ih hrest, ← List.append_assoc]

theorem foldl_push_segments_joinSegments {absolute : Bool} {ss : List Segment}
    (h : Kept absolute ss.reverse) :
    (segments (joinSegments ss)).foldl (push absolute) [] = ss.reverse := by
  by_cases hne : ss = []
  · subst hne
    rfl
  · rw [segments_joinSegments hne fun s hs => (h.proper s (List.mem_reverse.mpr hs)).1]
    have hagain := h.again
    rwa [List.reverse_reverse] at hagain

/-- No name starts with a slash because of its segments. -/
theorem isAbsolute_joinSegments {absolute : Bool} {ss : List Segment}
    (h : Kept absolute ss.reverse) : isAbsolute (joinSegments ss) = false := by
  cases ss with
  | nil => rfl
  | cons s ss =>
    obtain ⟨hslash, hne, -⟩ := h.proper s (by simp)
    cases s with
    | nil => exact absurd rfl hne
    | cons c s =>
      have hc : c ≠ '/' := fun heq => hslash (heq ▸ List.mem_cons_self)
      have hhead : (joinSegments ((c :: s) :: ss)).head? = some c := by
        cases ss with
        | nil => rfl
        | cons t ss => rfl
      rw [isAbsolute, hhead]
      simpa using hc

/-- The text of segments, from the root or from where one is. -/
def textOf (absolute : Bool) (ss : List Segment) : List Char :=
  if absolute then '/' :: joinSegments ss else joinSegments ss

theorem isAbsolute_textOf {absolute : Bool} {ss : List Segment} (h : Kept absolute ss.reverse) :
    isAbsolute (textOf absolute ss) = absolute := by
  cases absolute with
  | true => rfl
  | false => exact isAbsolute_joinSegments h

/-- Segments that are kept are those of their text. -/
theorem normalSegments_textOf {absolute : Bool} {ss : List Segment} (h : Kept absolute ss.reverse) :
    normalSegments (textOf absolute ss) = ss := by
  rw [normalSegments, isAbsolute_textOf h]
  cases absolute with
  | true =>
    have hsegments : segments (textOf true ss) = [] :: segments (joinSegments ss) := by
      rw [segments, textOf, if_pos rfl, Text.splitAt, if_pos rfl]
      rfl
    rw [hsegments, List.foldl_cons, push_of_empty (Or.inl rfl),
      foldl_push_segments_joinSegments h, List.reverse_reverse]
  | false =>
    have htext : textOf false ss = joinSegments ss := if_neg (by simp)
    rw [htext, foldl_push_segments_joinSegments h, List.reverse_reverse]

theorem normalizeChars_eq_textOf (name : List Char) :
    normalizeChars name = textOf (isAbsolute name) (normalSegments name) :=
  rfl

theorem isAbsolute_normalizeChars (name : List Char) :
    isAbsolute (normalizeChars name) = isAbsolute name := by
  rw [normalizeChars_eq_textOf, isAbsolute_textOf (kept_normalSegments name)]

theorem normalSegments_normalizeChars (name : List Char) :
    normalSegments (normalizeChars name) = normalSegments name := by
  rw [normalizeChars_eq_textOf, normalSegments_textOf (kept_normalSegments name)]

theorem normalizeChars_normalizeChars (name : List Char) :
    normalizeChars (normalizeChars name) = normalizeChars name := by
  rw [normalizeChars_eq_textOf (normalizeChars name), isAbsolute_normalizeChars,
    normalSegments_normalizeChars, ← normalizeChars_eq_textOf]

/-- The normal form of a name is its own normal form. -/
@[simp] theorem normalize_normalize (name : String) :
    normalize (normalize name) = normalize name := by
  rw [normalize, normalize, String.toList_ofList, normalizeChars_normalizeChars]

theorem isAbsolute_normalize {name : String} :
    isAbsolute (normalize name).toList = isAbsolute name.toList := by
  rw [normalize, String.toList_ofList, isAbsolute_normalizeChars]

theorem normalSegments_normalize {name : String} :
    normalSegments (normalize name).toList = normalSegments name.toList := by
  rw [normalize, String.toList_ofList, normalSegments_normalizeChars]

@[simp] theorem normalize_join (directory reference : String) :
    normalize (join directory reference) = join directory reference := by
  unfold join
  split
  · exact normalize_normalize reference
  · exact normalize_normalize (directory ++ "/" ++ reference)

/-- A name and its normal form are in the same directory. -/
@[simp] theorem directory_normalize (name : String) :
    directory (normalize name) = directory name := by
  unfold directory
  rw [isAbsolute_normalize, normalSegments_normalize]

end Name
end Schemata
