import Mathlib.Data.List.DropRight
import Schemata.Proofs.Name.Canonical

/-!
# Joining names

A normal name is told by where it starts and by its segments.  Joining takes the segments of the
reference onto those of the directory, and taking segments in one by one comes to the same as
taking in what they are normalised to.  So it makes no difference when a name is normalised, nor
in which order names are joined.
-/

namespace Schemata.Name

variable {absolute : Bool} {kept under ss : List Segment} {s : Segment} {chars : List Char}
  {directory reference name other : String}

/-! ## Taking segments in twice -/

/-- A segment is taken in alike before and after the kept segments are taken onto others. -/
theorem foldl_push_push (h : Kept false kept) :
    (push false kept s).reverse.foldl (push absolute) under =
      push absolute (kept.reverse.foldl (push absolute) under) s := by
  by_cases hidle : s = [] ∨ s = ['.']
  · rw [push_of_empty hidle, push_of_empty hidle]
  by_cases hparent : s = parent
  · subst hparent
    cases kept with
    | nil => rfl
    | cons top below =>
      by_cases htop : top = parent
      · have hpush : push false (top :: below) parent = parent :: top :: below := by
          simp [push_parent, htop]
        rw [hpush, List.reverse_cons, List.foldl_append, List.foldl_cons, List.foldl_nil]
      · have hpush : push false (top :: below) parent = below := by
          simp [push_parent, htop]
        have hproper : ¬ (top = [] ∨ top = ['.']) :=
          not_or.mpr (h.proper top List.mem_cons_self).2
        rw [hpush, List.reverse_cons, List.foldl_append, List.foldl_cons, List.foldl_nil,
          push_of_ne hproper htop, push_parent]
        simp [htop]
  · rw [push_of_ne hidle hparent, List.reverse_cons, List.foldl_append, List.foldl_cons,
      List.foldl_nil]

/-- So are any segments. -/
theorem foldl_push_foldl (h : Kept false kept) (hss : ∀ s ∈ ss, '/' ∉ s) :
    (ss.foldl (push false) kept).reverse.foldl (push absolute) under =
      ss.foldl (push absolute) (kept.reverse.foldl (push absolute) under) := by
  induction ss generalizing kept with
  | nil => rfl
  | cons s ss ih =>
    rw [List.forall_mem_cons] at hss
    rw [List.foldl_cons, ih (h.push hss.1) hss.2, foldl_push_push h, List.foldl_cons]

/-- The segments of a relative name are taken in like those of its normal form. -/
theorem foldl_push_normalSegments (h : isAbsolute chars = false) :
    (normalSegments chars).foldl (push absolute) under =
      (segments chars).foldl (push absolute) under := by
  have hslash : ∀ s ∈ segments chars, '/' ∉ s := fun s hs => Text.not_mem_of_mem_splitAt hs
  rw [normalSegments, h, foldl_push_foldl Kept.nil hslash, List.reverse_nil, List.foldl_nil]

theorem slash_not_mem_normalSegments (chars : List Char) :
    ∀ s ∈ normalSegments chars, '/' ∉ s := by
  intro s hs
  exact ((kept_normalSegments chars).proper s (List.mem_reverse.mpr hs)).1

/-! ## What a joined name is -/

/-- A normal name is told by where it starts and by its segments. -/
theorem eq_of_normal (hname : normalize name = name) (hother : normalize other = other)
    (hstart : isAbsolute name.toList = isAbsolute other.toList)
    (hsegments : normalSegments name.toList = normalSegments other.toList) : name = other := by
  rw [← hname, ← hother, normalize, normalize, normalizeChars_eq_textOf,
    normalizeChars_eq_textOf, hstart, hsegments]

theorem toList_below : (below directory name).toList = directory.toList ++ '/' :: name.toList := by
  simp [below]

theorem isAbsolute_below (h : directory ≠ "") :
    isAbsolute (below directory name).toList = isAbsolute directory.toList := by
  have hne : directory.toList ≠ [] := fun hnil => h (String.toList_eq_nil_iff.mp hnil)
  obtain ⟨c, rest, hchars⟩ := List.exists_cons_of_ne_nil hne
  rw [toList_below, hchars]
  rfl

/-- A joined name starts at the root if one of the two does. -/
theorem isAbsolute_join :
    isAbsolute (join directory reference).toList =
      (isAbsolute directory.toList || isAbsolute reference.toList) := by
  cases habsolute : isAbsolute reference.toList with
  | true => rw [join_of_absolute habsolute, isAbsolute_normalize, habsolute, Bool.or_true]
  | false =>
    by_cases hempty : directory = ""
    · subst hempty
      have hjoin : join "" reference = normalize reference := if_pos (Or.inl rfl)
      rw [hjoin, isAbsolute_normalize, habsolute]
      rfl
    · rw [join_of_relative hempty habsolute, isAbsolute_normalize, isAbsolute_below hempty,
        Bool.or_false]

/-- The segments of a relative reference are taken onto those of the directory. -/
theorem normalSegments_join_of_relative (h : isAbsolute reference.toList = false) :
    normalSegments (join directory reference).toList =
      ((segments reference.toList).foldl (push (isAbsolute directory.toList))
        (normalSegments directory.toList).reverse).reverse := by
  by_cases hempty : directory = ""
  · subst hempty
    have hjoin : join "" reference = normalize reference := if_pos (Or.inl rfl)
    rw [hjoin, normalSegments_normalize, normalSegments, h]
    rfl
  · rw [join_of_relative hempty h, normalSegments_normalize, normalSegments,
      isAbsolute_below hempty, toList_below, segments_append, List.foldl_append, normalSegments,
      List.reverse_reverse]

theorem normalSegments_join :
    normalSegments (join directory reference).toList =
      if isAbsolute reference.toList then normalSegments reference.toList
      else ((normalSegments reference.toList).foldl (push (isAbsolute directory.toList))
        (normalSegments directory.toList).reverse).reverse := by
  cases habsolute : isAbsolute reference.toList with
  | true => rw [join_of_absolute habsolute, normalSegments_normalize, if_pos rfl]
  | false =>
    rw [normalSegments_join_of_relative habsolute, if_neg (by decide),
      foldl_push_normalSegments habsolute]

/-! ## The order of joining -/

theorem join_join (directory reference name : String) :
    join (join directory reference) name = join directory (join reference name) := by
  apply eq_of_normal (normalize_join _ _) (normalize_join _ _)
  · rw [isAbsolute_join, isAbsolute_join, isAbsolute_join, isAbsolute_join, Bool.or_assoc]
  · simp only [normalSegments_join, isAbsolute_join]
    cases habsolute : isAbsolute name.toList with
    | true => simp
    | false =>
      cases habsolute' : isAbsolute reference.toList with
      | true => simp
      | false =>
        have hkept : Kept false (normalSegments reference.toList).reverse :=
          habsolute' ▸ kept_normalSegments reference.toList
        -- on the one side the name is taken onto the reference before the directory is under it
        simp [foldl_push_foldl hkept (slash_not_mem_normalSegments name.toList)]

/-- Joining sees no more of two names than their normal forms. -/
theorem join_congr {directory' reference' : String}
    (hdirectory : normalize directory = normalize directory')
    (hreference : normalize reference = normalize reference') :
    join directory reference = join directory' reference' := by
  have hnormal : ∀ directory reference : String,
      join (normalize directory) (normalize reference) = join directory reference := by
    intro directory reference
    apply eq_of_normal (normalize_join _ _) (normalize_join _ _)
    · rw [isAbsolute_join, isAbsolute_join, isAbsolute_normalize, isAbsolute_normalize]
    · rw [normalSegments_join, normalSegments_join, isAbsolute_normalize, isAbsolute_normalize,
        normalSegments_normalize, normalSegments_normalize]
  rw [← hnormal directory reference, hdirectory, hreference, hnormal]

theorem join_normalize_left (directory reference : String) :
    join (normalize directory) reference = join directory reference :=
  join_congr (normalize_normalize directory) rfl

theorem join_normalize_right (directory reference : String) :
    join directory (normalize reference) = join directory reference :=
  join_congr rfl (normalize_normalize reference)

/-! ## The directory and the base of a name -/

theorem kept_dropLast (chars : List Char) :
    Kept (isAbsolute chars) (normalSegments chars).dropLast.reverse := by
  rw [← List.tail_reverse]
  exact (climbs_normalSegments chars).tail.isKept

theorem isAbsolute_directory :
    isAbsolute (Name.directory name).toList = isAbsolute name.toList := by
  rw [Name.directory, String.toList_ofList]
  exact isAbsolute_textOf (kept_dropLast name.toList)

theorem normalSegments_directory :
    normalSegments (Name.directory name).toList = (normalSegments name.toList).dropLast := by
  rw [Name.directory, String.toList_ofList]
  exact normalSegments_textOf (kept_dropLast name.toList)

theorem segments_of_not_mem (h : '/' ∉ chars) : segments chars = [chars] := by
  rw [segments, Text.splitAt_eq_splitOn, List.splitOn_eq_singleton h]

theorem isAbsolute_of_not_mem (h : '/' ∉ chars) : isAbsolute chars = false := by
  cases chars with
  | nil => rfl
  | cons c rest =>
    have hc : c ≠ '/' := fun heq => h (heq ▸ List.mem_cons_self)
    simpa [isAbsolute] using hc

theorem slash_not_mem_base (name : String) : '/' ∉ (base name).toList := by
  rw [base, String.toList_ofList]
  rcases List.eq_nil_or_concat' (normalSegments name.toList) with hnil | ⟨front, last, hlast⟩
  · simp [hnil]
  · rw [hlast, List.getLastD_concat]
    exact slash_not_mem_normalSegments name.toList last (by simp [hlast])

/-- A name is the base of it, read in its directory. -/
theorem join_directory_base (name : String) :
    join (Name.directory name) (base name) = normalize name := by
  have hrelative := isAbsolute_of_not_mem (slash_not_mem_base name)
  apply eq_of_normal (normalize_join _ _) (normalize_normalize _)
  · rw [isAbsolute_join, isAbsolute_directory, hrelative, Bool.or_false, isAbsolute_normalize]
  · rw [normalSegments_join_of_relative hrelative, isAbsolute_directory, normalSegments_directory,
      segments_of_not_mem (slash_not_mem_base name), normalSegments_normalize, base,
      String.toList_ofList, List.foldl_cons, List.foldl_nil]
    rcases List.eq_nil_or_concat' (normalSegments name.toList) with hnil | ⟨front, last, hlast⟩
    · rw [hnil]
      rfl
    · have hagain := (kept_normalSegments name.toList).again
      have hfront := (kept_dropLast name.toList).again
      rw [hlast, List.dropLast_concat, List.reverse_reverse] at hfront
      rw [hlast, List.reverse_reverse, List.foldl_append, hfront] at hagain
      rw [hlast, List.dropLast_concat, List.getLastD_concat]
      rw [← List.reverse_reverse (front ++ [last]), ← hagain]
      rfl

/-! ## The text behind the last slash -/

/-- The text of segments ends in the last one, which stands behind a slash unless it is all. -/
theorem exists_textOf_concat (absolute : Bool) (front : List Segment) (last : Segment) :
    ∃ before, textOf absolute (front ++ [last]) = before ++ last ∧
      (before = [] ∨ ∃ more, before = more ++ ['/']) := by
  by_cases hfront : front = []
  · subst hfront
    cases absolute with
    | true => exact ⟨['/'], by simp [textOf, joinSegments], Or.inr ⟨[], rfl⟩⟩
    | false => exact ⟨[], by simp [textOf, joinSegments], Or.inl rfl⟩
  · have hjoined : joinSegments (front ++ [last]) = joinSegments front ++ ['/'] ++ last := by
      rw [joinSegments_append hfront (by simp)]
      simp [joinSegments]
    cases absolute with
    | true =>
      refine ⟨'/' :: joinSegments front ++ ['/'], ?_, Or.inr ⟨_, rfl⟩⟩
      rw [textOf, if_pos rfl, hjoined]
      rfl
    | false =>
      refine ⟨joinSegments front ++ ['/'], ?_, Or.inr ⟨_, rfl⟩⟩
      rw [textOf, if_neg (by decide), hjoined]

theorem rtakeWhile_append {before last : List Char} (hlast : '/' ∉ last)
    (hbefore : before = [] ∨ ∃ more, before = more ++ ['/']) :
    (before ++ last).rtakeWhile (· ≠ '/') = last := by
  have hall : ∀ c ∈ last.reverse, decide (c ≠ '/') = true := by
    intro c hc
    rw [decide_eq_true_iff]
    rintro rfl
    exact hlast (List.mem_reverse.mp hc)
  have hnone : before.reverse.takeWhile (· ≠ '/') = [] := by
    rcases hbefore with rfl | ⟨more, rfl⟩
    · rfl
    · simp
  rw [List.rtakeWhile, List.reverse_append, List.takeWhile_append_of_pos hall, hnone,
    List.append_nil, List.reverse_reverse]

/-- The base of a name is what stands behind the last slash of the normal form. -/
theorem base_eq_rtakeWhile (name : String) :
    base name = String.ofList ((normalize name).toList.rtakeWhile (· ≠ '/')) := by
  rw [base, normalize, String.toList_ofList, normalizeChars_eq_textOf]
  congr 1
  rcases List.eq_nil_or_concat' (normalSegments name.toList) with hnil | ⟨front, last, hlast⟩
  · rw [hnil]
    cases isAbsolute name.toList <;> rfl
  · obtain ⟨before, htext, hbefore⟩ := exists_textOf_concat (isAbsolute name.toList) front last
    have hfree : '/' ∉ last := slash_not_mem_normalSegments name.toList last (by simp [hlast])
    rw [hlast, htext, rtakeWhile_append hfree hbefore, List.getLastD_concat]

/-- Joining names is associative, whether directories are empty, references absolute or names climb
above their start; both names may be normalised before; and every name is what stands behind its
last slash, read in its directory. -/
theorem joining_is_associative :
    (∀ directory reference name : String,
      join (join directory reference) name = join directory (join reference name)) ∧
      (∀ directory reference : String,
        join (normalize directory) reference = join directory reference ∧
          join directory (normalize reference) = join directory reference) ∧
      ∀ name : String,
        join (Name.directory name)
          (String.ofList ((normalize name).toList.rtakeWhile (· ≠ '/'))) = normalize name := by
  refine ⟨join_join, ?_, ?_⟩
  · intro directory reference
    exact ⟨join_normalize_left directory reference, join_normalize_right directory reference⟩
  · intro name
    rw [← base_eq_rtakeWhile]
    exact join_directory_base name

end Schemata.Name
