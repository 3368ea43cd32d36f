import Schemata.Proofs.Name

/-!
# Names below a directory

A reference is read by taking its segments onto those of the directory.  If the name that comes out
goes down only, the reference has not climbed above the top of the directory, so it leads to the
same place when everything is moved into a directory further down.
-/

namespace Schemata.Name

/-- A segment that leads one step down. -/
structure Down (s : Segment) : Prop where
  slash : '/' ∉ s
  nonempty : s ≠ []
  dot : s ≠ ['.']
  parent : s ≠ parent

/-- A normal relative name that goes down only. -/
structure Plain (name : String) : Prop where
  nonempty : name ≠ ""
  normal : normalize name = name
  relative : isAbsolute name.toList = false
  down : parent ∉ segments name.toList

/-- The name in a directory. -/
def below (directory name : String) : String :=
  directory ++ "/" ++ name

/-- The name of some segments. -/
def ofSegments (ss : List Segment) : String :=
  String.ofList (joinSegments ss)

variable {ss ts : List Segment} {kept : List Segment} {name directory reference : String}

theorem below_injective (directory : String) : Function.Injective (below directory) := by
  intro name other h
  have hlist : directory.toList ++ "/".toList ++ name.toList =
      directory.toList ++ "/".toList ++ other.toList := by
    rw [← String.toList_append, ← String.toList_append, ← String.toList_append]
    exact congrArg String.toList h
  exact String.toList_inj.mp (List.append_cancel_left hlist)

theorem below_ofSegments (hss : ss ≠ []) (hts : ts ≠ []) :
    below (ofSegments ss) (ofSegments ts) = ofSegments (ss ++ ts) := by
  rw [ofSegments, ofSegments, ofSegments, below, joinSegments_append hss hts]
  apply String.toList_inj.mp
  simp

/-! ## Segments that lead down -/

theorem foldl_push_of_down {absolute : Bool} (hss : ∀ s ∈ ss, Down s) :
    ss.foldl (push absolute) kept = ss.reverse ++ kept := by
  induction ss generalizing kept with
  | nil => rfl
  | cons s ss ih =>
    rw [List.forall_mem_cons] at hss
    rw [List.foldl_cons, push_of_ne (not_or.mpr ⟨hss.1.nonempty, hss.1.dot⟩) hss.1.parent,
      ih hss.2, List.reverse_cons, List.append_assoc, List.singleton_append]

theorem kept_of_down {absolute : Bool} (hss : ∀ s ∈ ss, Down s) : Kept absolute ss.reverse := by
  constructor
  · intro s hs
    have hdown := hss s (List.mem_reverse.mp hs)
    exact ⟨hdown.slash, hdown.nonempty, hdown.dot⟩
  · rw [List.reverse_reverse, foldl_push_of_down hss, List.append_nil]

/-- The segments of a name are those it is made of. -/
theorem normalSegments_joinSegments (h : Kept false ss.reverse) :
    normalSegments (joinSegments ss) = ss :=
  normalSegments_textOf h

theorem Plain.exists_segments (h : Plain name) :
    ∃ ss, ss ≠ [] ∧ (∀ s ∈ ss, Down s) ∧ name = ofSegments ss := by
  have hname : name = ofSegments (normalSegments name.toList) := by
    have hnormal := h.normal
    rw [normalize, normalizeChars, h.relative] at hnormal
    exact hnormal.symm
  have hne : normalSegments name.toList ≠ [] := by
    intro hnil
    rw [hnil] at hname
    exact h.nonempty hname
  have hkept := kept_normalSegments name.toList
  have hslash : ∀ s ∈ normalSegments name.toList, '/' ∉ s :=
    fun s hs => (hkept.proper s (List.mem_reverse.mpr hs)).1
  refine ⟨normalSegments name.toList, hne, ?_, hname⟩
  intro s hs
  obtain ⟨hfree, hempty, hdot⟩ := hkept.proper s (List.mem_reverse.mpr hs)
  refine ⟨hfree, hempty, hdot, ?_⟩
  rintro rfl
  have hdown := h.down
  rw [hname, ofSegments, String.toList_ofList, segments_joinSegments hne hslash] at hdown
  exact hdown hs

/-! ## References -/

theorem parent_mem_foldl (h : parent ∈ kept) : parent ∈ ss.foldl (push false) kept := by
  induction ss generalizing kept with
  | nil => exact h
  | cons s ss ih =>
    apply ih
    by_cases hskip : s = [] ∨ s = ['.']
    · rwa [push_of_empty hskip]
    · by_cases hparent : s = parent
      · subst hparent
        rw [push_parent]
        cases kept with
        | nil => simp at h
        | cons top rest =>
          by_cases htop : top = parent
          · simp [htop]
          · simpa [htop, Ne.symm htop] using h
      · rw [push_of_ne hskip hparent]
        exact List.mem_cons_of_mem _ h

/-- What a name does not climb out of makes no difference to it. -/
theorem foldl_push_append {base : List Segment} (h : parent ∉ ss.foldl (push false) kept) :
    ss.foldl (push false) (kept ++ base) = ss.foldl (push false) kept ++ base := by
  induction ss generalizing kept with
  | nil => rfl
  | cons s ss ih =>
    have hpush : push false (kept ++ base) s = push false kept s ++ base := by
      by_cases hskip : s = [] ∨ s = ['.']
      · rw [push_of_empty hskip, push_of_empty hskip]
      · by_cases hparent : s = parent
        · subst hparent
          cases kept with
          | nil =>
            have hclimbs : parent ∈ ss.foldl (push false) (push false [] parent) :=
              parent_mem_foldl (by rw [push_parent]; simp)
            exact absurd hclimbs h
          | cons top rest =>
            rw [List.cons_append, push_parent, push_parent]
            by_cases htop : top = parent <;> simp [htop]
        · rw [push_of_ne hskip hparent, push_of_ne hskip hparent, List.cons_append]
    rw [List.foldl_cons, hpush, ih h, List.foldl_cons]

theorem join_of_relative (hdirectory : directory ≠ "")
    (hrelative : isAbsolute reference.toList = false) :
    join directory reference = normalize (below directory reference) :=
  if_neg (not_or.mpr ⟨hdirectory, by simp [hrelative]⟩)

theorem join_of_absolute (habsolute : isAbsolute reference.toList = true) :
    join directory reference = normalize reference :=
  if_pos (Or.inr habsolute)

theorem joinSegments_ne_nil (hne : ss ≠ []) (hss : ∀ s ∈ ss, Down s) : joinSegments ss ≠ [] := by
  intro hnil
  have hsegments := normalSegments_joinSegments (kept_of_down hss)
  rw [hnil] at hsegments
  exact hne hsegments.symm

theorem plain_ofSegments (hne : ss ≠ []) (hss : ∀ s ∈ ss, Down s) : Plain (ofSegments ss) := by
  have hkept : Kept false ss.reverse := kept_of_down hss
  have hrelative : isAbsolute (joinSegments ss) = false := isAbsolute_joinSegments hkept
  refine ⟨?_, ?_, by rwa [ofSegments, String.toList_ofList], ?_⟩
  · intro hempty
    exact joinSegments_ne_nil hne hss (by simpa [ofSegments] using congrArg String.toList hempty)
  · rw [normalize, normalizeChars, ofSegments, String.toList_ofList, hrelative,
      normalSegments_joinSegments hkept]
    rfl
  · rw [ofSegments, String.toList_ofList, segments_joinSegments hne fun s hs => (hss s hs).slash]
    exact fun hparent => (hss parent hparent).parent rfl

/-- A relative reference is taken onto the segments of the directory. -/
theorem join_ofSegments (hss : ∀ s ∈ ss, Down s) (hrelative : isAbsolute reference.toList = false) :
    join (ofSegments ss) reference =
      ofSegments ((segments reference.toList).foldl (push false) ss.reverse).reverse := by
  by_cases hempty : ss = []
  · subst hempty
    have htop : join (ofSegments []) reference = normalize reference := if_pos (Or.inl rfl)
    rw [htop, normalize, normalizeChars, normalSegments, hrelative]
    rfl
  · have hne : joinSegments ss ≠ [] := joinSegments_ne_nil hempty hss
    have hname : ofSegments ss ≠ "" := fun hnone => hne (String.ofList_inj.mp hnone)
    have hslash : ∀ s ∈ ss, '/' ∉ s := fun s hs => (hss s hs).slash
    have hlist : (below (ofSegments ss) reference).toList =
        joinSegments ss ++ '/' :: reference.toList := by
      simp [below, ofSegments]
    have hlonger : isAbsolute (joinSegments ss ++ '/' :: reference.toList) = false := by
      have hfirst := isAbsolute_joinSegments (kept_of_down hss : Kept false ss.reverse)
      obtain ⟨c, rest, hcons⟩ := List.exists_cons_of_ne_nil hne
      rw [hcons] at hfirst ⊢
      exact hfirst
    rw [join_of_relative hname hrelative, normalize, hlist, normalizeChars, normalSegments, hlonger,
      segments_append, segments_joinSegments hempty hslash, List.foldl_append,
      foldl_push_of_down hss, List.append_nil]
    rfl

theorem relative_of_normalize (h : Plain (normalize name)) : isAbsolute name.toList = false := by
  have hnormal := h.relative
  rwa [isAbsolute_normalize] at hnormal

/-- A reference that leads down within a directory leads to the same place within any directory
above it. -/
theorem join_append (hss : ss ≠ []) (hdown : ∀ s ∈ ss, Down s) (hts : ∀ t ∈ ts, Down t)
    (h : Plain (join (ofSegments ts) reference)) :
    join (ofSegments (ss ++ ts)) reference =
      below (ofSegments ss) (join (ofSegments ts) reference) := by
  have hrelative : isAbsolute reference.toList = false := by
    cases habsolute : isAbsolute reference.toList with
    | false => rfl
    | true =>
      rw [join_of_absolute habsolute] at h
      exact habsolute.symm.trans (relative_of_normalize h)
  obtain ⟨us, hus, hdown', hname⟩ := h.exists_segments
  rw [join_ofSegments hts hrelative] at hname ⊢
  have hkept : Kept false ((segments reference.toList).foldl (push false) ts.reverse) :=
    (kept_of_down hts).foldl fun s hs => Text.not_mem_of_mem_splitAt hs
  have hresult : (segments reference.toList).foldl (push false) ts.reverse = us.reverse := by
    have hsame : joinSegments ((segments reference.toList).foldl (push false) ts.reverse).reverse =
        joinSegments us := String.ofList_inj.mp hname
    have hsegments := congrArg normalSegments hsame
    rw [normalSegments_joinSegments (by rwa [List.reverse_reverse]),
      normalSegments_joinSegments (kept_of_down hdown')] at hsegments
    rw [← hsegments, List.reverse_reverse]
  have hclimb : parent ∉ (segments reference.toList).foldl (push false) ts.reverse := by
    rw [hresult, List.mem_reverse]
    exact fun hparent => (hdown' parent hparent).parent rfl
  have hmore : ∀ s ∈ ss ++ ts, Down s := by
    intro s hs
    rcases List.mem_append.mp hs with hfirst | hsecond
    · exact hdown s hfirst
    · exact hts s hsecond
  rw [join_ofSegments hmore hrelative, List.reverse_append, foldl_push_append hclimb, hresult,
    List.reverse_append, List.reverse_reverse, List.reverse_reverse, below_ofSegments hss hus]

/-! ## Plain names -/

theorem directory_ofSegments (hss : ∀ s ∈ ss, Down s) :
    Name.directory (ofSegments ss) = ofSegments ss.dropLast := by
  have hkept : Kept false ss.reverse := kept_of_down hss
  rw [Name.directory, ofSegments, String.toList_ofList, isAbsolute_joinSegments hkept,
    normalSegments_joinSegments hkept]
  rfl

/-- When a document is moved down, a reference of it moves along. -/
theorem join_directory_below (hdirectory : Plain directory) (hname : Plain name)
    (h : Plain (join (Name.directory name) reference)) :
    join (Name.directory (below directory name)) reference =
      below directory (join (Name.directory name) reference) := by
  obtain ⟨ss, hss, hdown, rfl⟩ := hdirectory.exists_segments
  obtain ⟨ts, hts, hdown', rfl⟩ := hname.exists_segments
  have hmore : ∀ s ∈ ss ++ ts, Down s := by
    intro s hs
    rcases List.mem_append.mp hs with hfirst | hsecond
    · exact hdown s hfirst
    · exact hdown' s hsecond
  rw [directory_ofSegments hdown'] at h ⊢
  rw [below_ofSegments hss hts, directory_ofSegments hmore, List.dropLast_append_of_ne_nil hts]
  exact join_append hss hdown (fun t ht => hdown' t (List.dropLast_subset ts ht)) h

/-- A name that is moved down may be normalised before or after. -/
theorem normalize_below (hdirectory : Plain directory) (h : Plain (normalize name)) :
    normalize (below directory name) = below directory (normalize name) := by
  have hrelative := relative_of_normalize h
  rw [← join_of_relative hdirectory.nonempty hrelative]
  obtain ⟨ss, hss, hdown, rfl⟩ := hdirectory.exists_segments
  have htop : join (ofSegments []) name = normalize name := if_pos (Or.inl rfl)
  rw [← htop] at h ⊢
  have hjoin := join_append hss hdown (List.forall_mem_nil _) h
  rwa [List.append_nil] at hjoin

end Schemata.Name
