import Schemata.Proofs.Store.Names

/-!
# Absolute names stay below the root of a store

The normal form of a name is canonical, and a canonical name that starts at the root has no `..`
left.  So the path of its file has nothing behind the root of the store that leads back, wherever
the root is.
-/

namespace Schemata.DirectoryStore

open FileSystem (isNoName)

variable {root : Path} {name : String} {ss : List Name.Segment}

/-- The path of segments that lead down has no part that leads back. -/
theorem not_mem_parts_ofSegments (hss : ∀ s ∈ ss, Name.Down s) :
    ".." ∉ (Path.ofText (Name.ofSegments ss)).parts := by
  by_cases hne : ss = []
  · subst hne
    decide
  · rw [Path.parts_ofText, Name.ofSegments, String.toList_ofList,
      Name.segments_joinSegments hne fun s hs => (hss s hs).slash]
    intro hmem
    obtain ⟨s, hs, hparent⟩ := List.mem_map.mp hmem
    exact (hss s hs).parent (Path.ofList_eq_iff.mp hparent)

/-- A name from the root has only segments that lead down. -/
theorem down_of_isAbsolute (h : Name.isAbsolute name.toList = true) :
    ∀ s ∈ Name.normalSegments name.toList, Name.Down s := by
  obtain ⟨climbs, down, hsegments, hdown, habsolute⟩ := Name.exists_climbs name.toList
  obtain rfl : climbs = 0 := habsolute h
  rw [hsegments]
  exact hdown

/-- The file for a normal name from the root is below the place of the root. -/
theorem place_isPrefix_of_isAbsolute (hnormal : Name.normalize name = name)
    (h : Name.isAbsolute name.toList = true) (fs : FileSystem) :
    fs.place root <+: fs.place (keyPath root name) := by
  have hnames : ∀ part ∈ (Name.normalSegments name.toList).map String.ofList,
      isNoName part = false := by
    intro part hpart
    obtain ⟨s, hs, rfl⟩ := List.mem_map.mp hpart
    exact isNoName_ofList (down_of_isAbsolute h s hs)
  rw [place_of_normal hnormal, FileSystem.foldl_follow_of_names hnames]
  exact List.prefix_append _ _

/-- The normal form starts at the root exactly if the name does, and its text is canonical: no
segment is empty or `.`, and `..` stands only in front of a relative one.  Exactly the canonical
names are left as they are.  So the path of the file for an absolute name goes on from the root of
the store without a `..`, and the file is below the root. -/
theorem normal_form_is_canonical_and_confined :
    (∀ name : String,
      Name.isAbsolute (Name.normalize name).toList = Name.isAbsolute name.toList ∧
        Name.Canonical (Name.normalize name).toList) ∧
      (∀ name : String, Name.normalize name = name ↔ Name.Canonical name.toList) ∧
      (∀ name : String, Name.normalize (Name.normalize name) = Name.normalize name) ∧
      ∀ (root : Path) (name : String), Name.isAbsolute name.toList = true →
        ∃ below : List String,
          (keyPath root (Name.normalize name)).parts = root.leading ++ below ∧ ".." ∉ below ∧
            ∀ fs : FileSystem, fs.place root <+: fs.place (keyPath root (Name.normalize name)) := by
  refine ⟨?_, fun name => Name.normalize_eq_self_iff, Name.normalize_normalize, ?_⟩
  · intro name
    exact ⟨Name.isAbsolute_normalize, Name.canonical_normalize name⟩
  · intro root name habsolute
    have hnormal := Name.normalize_normalize name
    have hfrom : Name.isAbsolute (Name.normalize name).toList = true := by
      rw [Name.isAbsolute_normalize, habsolute]
    refine ⟨_, ?_, not_mem_parts_ofSegments (down_of_isAbsolute hfrom), ?_⟩
    · rw [keyPath_of_normal hnormal, Path.parts_join]
    · exact place_isPrefix_of_isAbsolute hnormal hfrom

/-- A name that climbs above the root several times. -/
def escaping : String :=
  "/a/../../..//etc/./keys/../passwd/"

theorem escaping_is_confined :
    Name.isAbsolute escaping.toList = true ∧ Name.normalize escaping = "/etc/passwd" ∧
      (Path.ofText "/srv/schemas/").leading = ["", "srv", "schemas"] ∧
      ∃ below : List String,
        (keyPath (Path.ofText "/srv/schemas/") (Name.normalize escaping)).parts =
          (Path.ofText "/srv/schemas/").leading ++ below ∧ ".." ∉ below ∧
          ∀ fs : FileSystem, fs.place (Path.ofText "/srv/schemas/") <+:
            fs.place (keyPath (Path.ofText "/srv/schemas/") (Name.normalize escaping)) := by
  have habsolute : Name.isAbsolute escaping.toList = true := by decide
  have hnormal : Name.normalize escaping = "/etc/passwd" := by decide
  have hleading : (Path.ofText "/srv/schemas/").leading = ["", "srv", "schemas"] := by
    decide
  obtain ⟨-, -, -, hconfined⟩ := normal_form_is_canonical_and_confined
  exact ⟨habsolute, hnormal, hleading, hconfined _ _ habsolute⟩

end Schemata.DirectoryStore
