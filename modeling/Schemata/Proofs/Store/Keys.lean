import Schemata.CacheKey
import Schemata.Proofs.FileSystem.Storing
import Schemata.Proofs.Name.Below
import Schemata.Store.Directory

/-!
# Keys of the store in a directory

A tidy key is a relative name in normal form that does not lead back.  The file for it is found
under its segments, below the place of the root.
-/

namespace Schemata

open FileSystem (isNoName nameLimit follow)

/-- A plain name with segments that are short enough. -/
structure TidyKey (key : String) : Prop extends Name.Plain key where
  short : ∀ part ∈ (Path.ofText key).parts, part.utf8ByteSize ≤ nameLimit

theorem isNoName_ofList {s : Name.Segment} (h : Name.Down s) :
    isNoName (String.ofList s) = false := by
  have hparent : String.ofList s ≠ ".." := fun heq => h.parent (Path.ofList_eq_iff.mp heq)
  simp [isNoName, Path.isIdle_ofList h.nonempty h.dot, hparent]

/-- The path of a relative text is relative. -/
theorem isAbsolute_ofText {text : String} (h : Name.isAbsolute text.toList = false) :
    (Path.ofText text).isAbsolute = false := by
  rw [Path.ofText]
  cases hchars : text.toList with
  | nil => rfl
  | cons c rest =>
    rw [hchars] at h
    have hc : c ≠ '/' := by simpa [Name.isAbsolute] using h
    rw [Text.splitAt, if_neg hc]
    refine Path.isAbsolute_of_head fun part hpart hempty => ?_
    subst hempty
    split at hpart
    · simp [← String.toList_inj] at hpart
    · simp [← String.toList_inj] at hpart

namespace TidyKey

variable {key other : String}

theorem segments (h : TidyKey key) :
    key = Name.ofSegments (Name.segments key.toList) ∧
      ∀ s ∈ Name.segments key.toList, Name.Down s := by
  obtain ⟨ss, hne, hdown, hkey⟩ := h.exists_segments
  have hsegments : Name.segments key.toList = ss := by
    rw [hkey, Name.ofSegments, String.toList_ofList,
      Name.segments_joinSegments hne fun s hs => (hdown s hs).slash]
  rw [hsegments]
  exact ⟨hkey, hdown⟩

/-- All parts of a tidy key are names. -/
theorem names (h : TidyKey key) : ∀ part ∈ (Path.ofText key).parts, isNoName part = false := by
  intro part hpart
  rw [Path.parts_ofText] at hpart
  obtain ⟨s, hs, rfl⟩ := List.mem_map.mp hpart
  exact isNoName_ofList (h.segments.2 s hs)

theorem names_ofText (h : TidyKey key) : (Path.ofText key).names = (Path.ofText key).parts :=
  Path.moving_eq_self fun part hpart => (Bool.or_eq_false_iff.mp (h.names part hpart)).1

/-- The parts of a tidy key tell the key. -/
theorem injective (h : TidyKey key) (hother : TidyKey other)
    (heq : (Path.ofText key).parts = (Path.ofText other).parts) : key = other := by
  rw [Path.parts_ofText, Path.parts_ofText] at heq
  have hsegments := List.map_injective_iff.mpr (fun a b hab => String.ofList_injective hab) heq
  rw [h.segments.1, hother.segments.1, hsegments]

end TidyKey

/-! ## Keys of the cache -/

/-- A key of the cache has sixty-four hexadecimal digits, and nothing that means anything in a
path. -/
theorem exists_digits_of_cacheKey (name : String) :
    ∃ cs : List Char, cacheKey name = String.ofList cs ∧ cs.length = 64 ∧
      ∀ c ∈ cs, c ≠ '/' ∧ c ≠ '.' ∧ c.utf8Size = 1 := by
  have hdigit : ∀ d < 16, Nat.digitChar d ≠ '/' ∧ Nat.digitChar d ≠ '.' ∧
      (Nat.digitChar d).utf8Size = 1 := by decide
  refine ⟨_, rfl, rfl, fun c hc => ?_⟩
  obtain ⟨w, -, hw⟩ := List.mem_flatMap.mp hc
  obtain ⟨shift, -, rfl⟩ := List.mem_map.mp hw
  apply hdigit
  rw [UInt32.toNat_and]
  exact Nat.lt_succ_of_le Nat.and_le_right

/-- So it is one segment, and a tidy key. -/
theorem tidyKey_cacheKey (name : String) :
    (Path.ofText (cacheKey name)).parts = [cacheKey name] ∧ TidyKey (cacheKey name) := by
  obtain ⟨cs, hkey, hlength, hdigits⟩ := exists_digits_of_cacheKey name
  have hdown : Name.Down cs := by
    refine ⟨fun h => (hdigits _ h).1 rfl, ?_, ?_, ?_⟩
    · exact fun h => absurd (h ▸ hlength) (by decide)
    · exact fun h => absurd (h ▸ hlength) (by decide)
    · exact fun h => absurd (h ▸ hlength) (by decide)
  have hname : cacheKey name = Name.ofSegments [cs] := by
    rw [hkey, Name.ofSegments, Name.joinSegments, List.intercalate_singleton]
  have hparts : (Path.ofText (cacheKey name)).parts = [cacheKey name] := by
    rw [Path.parts_ofText, hname, Name.ofSegments, String.toList_ofList,
      Name.segments_joinSegments (by simp) (by simpa using hdown.slash), ← Name.ofSegments, ← hname,
      List.map_singleton, ← hkey]
  refine ⟨hparts, hname ▸ Name.plain_ofSegments (by simp) (by simpa using hdown), ?_⟩
  rw [hparts, List.forall_mem_singleton, hkey, String.utf8ByteSize_ofList,
    FileSystem.utf8Len_eq_length fun c hc => (hdigits c hc).2.2, hlength]
  decide

namespace DirectoryStore

variable {root : Path} {key : String} {fs : FileSystem} {l : Location}

/-- The directory that the file for a key is put into. -/
def directoryOf (root : Path) (key : String) : Path :=
  (keyPath root key).parent?.getD root

theorem dropWhile_of_relative {cs : List Char} (h : Name.isAbsolute cs = false) :
    cs.dropWhile (· = '/') = cs := by
  cases cs with
  | nil => rfl
  | cons c rest =>
    have hc : c ≠ '/' := by simpa [Name.isAbsolute] using h
    rw [List.dropWhile_cons_of_neg (by simpa using hc)]

theorem keyPath_of_relative (h : Name.isAbsolute key.toList = false) :
    keyPath root key = root.join key := by
  rw [keyPath, dropWhile_of_relative h, String.ofList_toList]

theorem parts_keyPath (h : TidyKey key) :
    (keyPath root key).parts = root.leading ++ (Path.ofText key).parts := by
  rw [keyPath_of_relative h.relative, Path.parts_join]

theorem text_keyPath (h : TidyKey key) (hroot : root.leading ≠ []) :
    (keyPath root key).text = String.intercalate "/" root.leading ++ "/" ++ key := by
  rw [Path.text, parts_keyPath h,
    String.intercalate_append_of_ne_nil hroot Path.parts_ofText_ne_nil]
  exact congrArg (_ ++ ·) Path.text_ofText

theorem names_keyPath (h : TidyKey key) :
    (keyPath root key).names = root.names ++ (Path.ofText key).parts := by
  rw [keyPath_of_relative h.relative, Path.names_join, h.names_ofText]

theorem moving_dropLast_keyPath (h : TidyKey key) :
    Path.moving (keyPath root key).parts.dropLast =
      root.names ++ (Path.ofText key).parts.dropLast := by
  rw [parts_keyPath h, List.dropLast_append_of_ne_nil Path.parts_ofText_ne_nil, Path.moving_append,
    Path.moving_leading, Path.moving_eq_self fun part hpart => (Bool.or_eq_false_iff.mp
      (h.names part (List.mem_of_mem_dropLast hpart))).1]

theorem short_keyPath (h : TidyKey key)
    (hroot : ∀ part ∈ root.names, part.utf8ByteSize ≤ nameLimit) :
    ∀ part ∈ (keyPath root key).names, part.utf8ByteSize ≤ nameLimit := by
  rw [names_keyPath h]
  exact fun part hpart => (List.mem_append.mp hpart).elim (hroot part) (h.short part)

theorem start_keyPath (h : TidyKey key) : fs.start (keyPath root key) = fs.start root := by
  refine FileSystem.start_of_isAbsolute ?_
  rw [keyPath_of_relative h.relative, Path.isAbsolute_join (isAbsolute_ofText h.relative)]

/-- The file for a tidy key is under its segments. -/
theorem place_keyPath (h : TidyKey key) :
    fs.place (keyPath root key) = fs.place root ++ (Path.ofText key).parts := by
  rw [← FileSystem.foldl_follow_names, names_keyPath h, start_keyPath h, List.foldl_append,
    FileSystem.foldl_follow_names, FileSystem.foldl_follow_of_names h.names]

theorem isAbove_directoryOf (h : TidyKey key) :
    Path.IsAbove (directoryOf root key) (keyPath root key) := by
  have hne : (keyPath root key).names ≠ [] := by
    rw [names_keyPath h]
    exact List.append_ne_nil_of_right_ne_nil _ Path.parts_ofText_ne_nil
  obtain ⟨above, hparent⟩ := Path.exists_parent? hne
  rw [directoryOf, hparent, Option.getD_some]
  exact Path.isAbove_of_parent? hparent

theorem names_directoryOf (h : TidyKey key) :
    (directoryOf root key).names = root.names ++ (Path.ofText key).parts.dropLast := by
  rw [(isAbove_directoryOf h).names, names_keyPath h,
    List.dropLast_append_of_ne_nil Path.parts_ofText_ne_nil]

theorem start_directoryOf (h : TidyKey key) :
    fs.start (directoryOf root key) = fs.start root := by
  have hstart : fs.start (keyPath root key) = fs.start root := start_keyPath h
  rw [← hstart, FileSystem.start, FileSystem.start, (isAbove_directoryOf h).isAbsolute]

theorem place_append {front : List String} (h : TidyKey key)
    (hfront : front <+: (Path.ofText key).parts) :
    front.foldl follow (fs.place root) = fs.place root ++ front :=
  FileSystem.foldl_follow_of_names fun part hpart => h.names part (hfront.subset hpart)

theorem place_directoryOf (h : TidyKey key) :
    fs.place (directoryOf root key) = fs.place root ++ (Path.ofText key).parts.dropLast := by
  rw [← FileSystem.foldl_follow_names, names_directoryOf h, start_directoryOf h, List.foldl_append,
    FileSystem.foldl_follow_names, place_append h (List.dropLast_prefix _)]

/-- The way to the directory of a file leads to the root and then along the segments. -/
theorem onWay_directoryOf (h : TidyKey key) (hl : fs.OnWay (directoryOf root key) l) :
    fs.OnWay root l ∨ ∃ front, front ≠ [] ∧ front <+: (Path.ofText key).parts.dropLast ∧
      l = fs.place root ++ front := by
  obtain ⟨front, hfront, rfl⟩ := hl
  rw [names_directoryOf h] at hfront
  rw [start_directoryOf h]
  rcases FileSystem.prefix_or_append hfront with hroot | ⟨more, rfl, hmore⟩
  · exact Or.inl ⟨front, hroot, rfl⟩
  · rw [List.foldl_append, FileSystem.foldl_follow_names,
      place_append h (hmore.trans (List.dropLast_prefix _))]
    by_cases hnil : more = []
    · rw [hnil, List.append_nil]
      exact Or.inl FileSystem.onWay_place
    · exact Or.inr ⟨more, hnil, hmore, rfl⟩

end DirectoryStore
end Schemata
