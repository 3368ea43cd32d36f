import Mathlib.Data.List.ProdSigma
import Schemata.Proofs.Name.Canonical
import Schemata.Proofs.Store.Directory

/-!
# Names of documents in a directory

A normal name climbs out of the directory by some `..` and then goes down, so it is told by how far
it climbs and by the location it leads to.  Names that fit into a path do not climb far; so the
names of the files of a file system are finitely many.
-/

namespace Schemata

namespace Name

/-- How far a name climbs; a name from the root is told apart. -/
def climb (name : String) : Nat :=
  if isAbsolute name.toList then 0 else (normalSegments name.toList).count parent + 1

end Name

namespace DirectoryStore

open FileSystem (follow pathLimit)

variable {root : Path} {name other : String} {fs : FileSystem}

theorem toList_of_normal (h : Name.normalize name = name) :
    name.toList = if Name.isAbsolute name.toList then
      '/' :: Name.joinSegments (Name.normalSegments name.toList)
      else Name.joinSegments (Name.normalSegments name.toList) := by
  have hnormal := congrArg String.toList h
  rw [Name.normalize, String.toList_ofList, Name.normalizeChars] at hnormal
  exact hnormal.symm

/-- The file for a normal name is found by its segments. -/
theorem keyPath_of_normal (h : Name.normalize name = name) :
    keyPath root name = root.join (Name.ofSegments (Name.normalSegments name.toList)) := by
  have hlist := toList_of_normal h
  have hrelative : Name.isAbsolute (Name.joinSegments (Name.normalSegments name.toList)) = false :=
    Name.isAbsolute_joinSegments (Name.kept_normalSegments name.toList)
  have hdrop : name.toList.dropWhile (· = '/') =
      Name.joinSegments (Name.normalSegments name.toList) := by
    generalize Name.joinSegments (Name.normalSegments name.toList) = joined at hlist hrelative
    rw [hlist]
    split
    · rw [List.dropWhile_cons_of_pos (by simp), dropWhile_of_relative hrelative]
    · exact dropWhile_of_relative hrelative
  rw [keyPath, hdrop, Name.ofSegments]

theorem names_ofSegments {ss : List Name.Segment} (hss : ∀ s ∈ ss, '/' ∉ s ∧ s ≠ [] ∧ s ≠ ['.']) :
    (Path.ofText (Name.ofSegments ss)).names = ss.map String.ofList := by
  by_cases hne : ss = []
  · subst hne
    rfl
  · rw [Path.names, Path.parts_ofText, Name.ofSegments, String.toList_ofList,
      Name.segments_joinSegments hne fun s hs => (hss s hs).1]
    refine Path.moving_eq_self fun part hpart => ?_
    obtain ⟨s, hs, rfl⟩ := List.mem_map.mp hpart
    exact Path.isIdle_ofList (hss s hs).2.1 (hss s hs).2.2

theorem names_normalSegments (name : String) :
    (Path.ofText (Name.ofSegments (Name.normalSegments name.toList))).names =
      (Name.normalSegments name.toList).map String.ofList :=
  names_ofSegments fun s hs =>
    (Name.kept_normalSegments name.toList).proper s (List.mem_reverse.mpr hs)

/-- From the place of the root, the segments of a normal name lead to the file. -/
theorem place_of_normal (h : Name.normalize name = name) :
    fs.place (keyPath root name) =
      ((Name.normalSegments name.toList).map String.ofList).foldl follow (fs.place root) := by
  have hrelative : (Path.ofText (Name.ofSegments (Name.normalSegments name.toList))).isAbsolute =
      false := by
    apply isAbsolute_ofText
    rw [Name.ofSegments, String.toList_ofList]
    exact Name.isAbsolute_joinSegments (Name.kept_normalSegments name.toList)
  rw [keyPath_of_normal h, ← FileSystem.foldl_follow_names, Path.names_join, names_normalSegments,
    List.foldl_append, FileSystem.start, Path.isAbsolute_join hrelative, ← FileSystem.start,
    FileSystem.foldl_follow_names]

/-- A normal name is told by how far it climbs and where it leads to. -/
theorem eq_of_climb (h : Name.normalize name = name) (hother : Name.normalize other = other)
    (hclimb : Name.climb name = Name.climb other)
    (hplace : fs.place (keyPath root name) = fs.place (keyPath root other)) : name = other := by
  obtain ⟨climbs, down, hname, hdown, habsolute⟩ := Name.exists_climbs name.toList
  obtain ⟨climbs', down', hname', hdown', habsolute'⟩ := Name.exists_climbs other.toList
  have hcount : ∀ climbs down, (∀ s ∈ down, Name.Down s) →
      (List.replicate climbs Name.parent ++ down).count Name.parent = climbs := by
    intro climbs down hdown
    rw [List.count_append, List.count_replicate_self,
      List.count_eq_zero.mpr fun hmem => (hdown _ hmem).parent rfl, Nat.add_zero]
  have hsame : Name.isAbsolute name.toList = Name.isAbsolute other.toList ∧ climbs = climbs' := by
    rw [Name.climb, Name.climb, hname, hname', hcount climbs down hdown,
      hcount climbs' down' hdown'] at hclimb
    cases hfirst : Name.isAbsolute name.toList with
    | true =>
      cases hsecond : Name.isAbsolute other.toList with
      | true => exact ⟨rfl, (habsolute hfirst).trans (habsolute' hsecond).symm⟩
      | false => simp [hfirst, hsecond] at hclimb
    | false =>
      cases hsecond : Name.isAbsolute other.toList with
      | true => simp [hfirst, hsecond] at hclimb
      | false => exact ⟨rfl, by simpa [hfirst, hsecond] using hclimb⟩
  obtain ⟨hsame, rfl⟩ := hsame
  have hplaces : ∀ down : List Name.Segment, (∀ s ∈ down, Name.Down s) →
      ((List.replicate climbs Name.parent ++ down).map String.ofList).foldl follow (fs.place root) =
        ((List.replicate climbs Name.parent).map String.ofList).foldl follow (fs.place root) ++
          down.map String.ofList := by
    intro down hdown
    rw [List.map_append, List.foldl_append, FileSystem.foldl_follow_of_names]
    intro part hpart
    obtain ⟨s, hs, rfl⟩ := List.mem_map.mp hpart
    exact isNoName_ofList (hdown s hs)
  rw [place_of_normal h, place_of_normal hother, hname, hname', hplaces down hdown,
    hplaces down' hdown'] at hplace
  have hsegments : down = down' :=
    List.map_injective_iff.mpr (fun a b hab => String.ofList_injective hab)
      (List.append_cancel_left hplace)
  apply String.toList_inj.mp
  rw [toList_of_normal h, toList_of_normal hother, hsame, hname, hname', hsegments]

/-- A normal name with a path climbs only as far as a path has room. -/
theorem climb_lt (h : Name.normalize name = name)
    (hcheck : FileSystem.checkPath (keyPath root name) = .ok ()) : Name.climb name < pathLimit := by
  have hsize := (FileSystem.checkPath_eq_ok.mp hcheck).2.2
  have hlength : 2 * (keyPath root name).names.length ≤
      (keyPath root name).text.utf8ByteSize + 1 := Path.length_moving_le (keyPath root name).parts
  have hnames : (keyPath root name).names =
      root.names ++ (Name.normalSegments name.toList).map String.ofList := by
    rw [keyPath_of_normal h, Path.names_join, names_normalSegments]
  have hcount : (Name.normalSegments name.toList).count Name.parent ≤
      (keyPath root name).names.length := by
    rw [hnames, List.length_append, List.length_map]
    exact List.count_le_length.trans (Nat.le_add_left _ _)
  unfold Name.climb
  split
  · decide
  · have hlimit : pathLimit = 4096 := rfl
    omega

/-- The names of the files are finitely many, and no more than the files have paths. -/
theorem exists_names (fs : FileSystem) (root : Path) :
    ∃ names : List String, names.length ≤ pathLimit * fs.files.length ∧
      ∀ name bytes, Name.normalize name = name →
        FileSystem.checkPath (keyPath root name) = .ok () →
          fs.file? (fs.place (keyPath root name)) = some bytes → name ∈ names := by
  classical
  let named : Nat × Location × ByteArray → Option String := fun p =>
    if h : ∃ name, Name.normalize name = name ∧ Name.climb name = p.1 ∧
      fs.place (keyPath root name) = p.2.1 then some h.choose else none
  refine ⟨(List.range pathLimit ×ˢ fs.files).filterMap named, ?_, ?_⟩
  · refine (List.length_filterMap_le _ _).trans (le_of_eq ?_)
    rw [List.length_product, List.length_range]
  · intro name bytes hnormal hcheck hfile
    have hexists : ∃ other, Name.normalize other = other ∧ Name.climb other = Name.climb name ∧
        fs.place (keyPath root other) = fs.place (keyPath root name) := ⟨name, hnormal, rfl, rfl⟩
    refine List.mem_filterMap.mpr ⟨(Name.climb name, _, bytes), List.mem_product.mpr
      ⟨List.mem_range.mpr (climb_lt hnormal hcheck), FileSystem.mem_files hfile⟩, ?_⟩
    have hchoice := hexists.choose_spec
    exact (dif_pos hexists).trans
      (congrArg some (eq_of_climb hchoice.1 hnormal hchoice.2.1 hchoice.2.2))

end DirectoryStore
end Schemata
