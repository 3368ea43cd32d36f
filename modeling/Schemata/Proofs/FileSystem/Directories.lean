import Schemata.Proofs.FileSystem.Place

/-!
# Making directories

Making a directory together with those above it changes nothing but that directories are added at
places on the way to it, also if it fails.  It gets through if no place on the way is a file.
-/

namespace Schemata.FileSystem

variable {fs made later : FileSystem} {l m : Location} {p above : Path} {way : Location → Prop}

/-- The same entries and more directories, at locations on a way. -/
structure AddsDirectories (way : Location → Prop) (fs made : FileSystem) : Prop where
  current : made.current = fs.current
  entry? : ∀ l, made.entry? l = fs.entry? l ∨
    fs.entry? l = none ∧ made.entry? l = some .directory ∧ way l

namespace AddsDirectories

theorem refl (way : Location → Prop) (fs : FileSystem) : AddsDirectories way fs fs :=
  ⟨rfl, fun _ => Or.inl rfl⟩

theorem start (h : AddsDirectories way fs made) (p : Path) : made.start p = fs.start p :=
  start_congr h.current

theorem place (h : AddsDirectories way fs made) (p : Path) : made.place p = fs.place p :=
  place_congr h.current

theorem entry?_of_some (h : AddsDirectories way fs made) {e : Entry} (he : fs.entry? l = some e) :
    made.entry? l = some e := by
  rcases h.entry? l with hsame | ⟨hnone, -⟩
  · rw [hsame, he]
  · simp [he] at hnone

theorem entry?_of_file (h : AddsDirectories way fs made) {content : ByteArray}
    (he : made.entry? l = some (.file content)) : fs.entry? l = some (.file content) := by
  rcases h.entry? l with hsame | ⟨-, hdirectory, -⟩
  · rw [← hsame, he]
  · simp [he] at hdirectory

/-- Nothing is added off the way. -/
theorem entry?_of_not_way (h : AddsDirectories way fs made) (hl : ¬ way l) :
    made.entry? l = fs.entry? l := by
  rcases h.entry? l with hsame | ⟨-, -, hway⟩
  · exact hsame
  · exact absurd hway hl

theorem file? (h : AddsDirectories way fs made) (l : Location) : made.file? l = fs.file? l := by
  rcases h.entry? l with hsame | ⟨hnone, hdirectory, -⟩
  · exact file?_congr hsame
  · rw [FileSystem.file?, FileSystem.file?, hnone, hdirectory]

theorem trans (h : AddsDirectories way fs made) (hlater : AddsDirectories way made later) :
    AddsDirectories way fs later := by
  refine ⟨hlater.current.trans h.current, fun l => ?_⟩
  rcases hlater.entry? l with hsame | ⟨hnone, hdirectory, hway⟩
  · rw [hsame]
    exact h.entry? l
  · rcases h.entry? l with hbefore | ⟨-, hmade, -⟩
    · exact Or.inr ⟨hbefore ▸ hnone, hdirectory, hway⟩
    · simp [hmade] at hnone

theorem mono {more : Location → Prop} (h : AddsDirectories way fs made)
    (hway : ∀ l, way l → more l) : AddsDirectories more fs made :=
  ⟨h.current, fun l => (h.entry? l).imp_right fun ⟨hnone, hdirectory, hl⟩ =>
    ⟨hnone, hdirectory, hway l hl⟩⟩

theorem set (hl : fs.entry? l = none) (hway : way l) :
    AddsDirectories way fs (fs.set l .directory) := by
  have hnone : fs.entry? l ≠ some .directory := by simp [hl]
  have hne : l ≠ [] := ne_nil_of_entry? hnone
  refine ⟨rfl, fun m => ?_⟩
  rw [entry?_set hne]
  by_cases hm : m = l
  · subst hm
    exact Or.inr ⟨hl, if_pos rfl, hway⟩
  · exact Or.inl (if_neg hm)

theorem passable (h : AddsDirectories way fs made) {parts : List String}
    (hpassable : fs.Passable l parts) : made.Passable l parts :=
  fun front hfront content hfile => hpassable front hfront content (h.entry?_of_file hfile)

theorem opens (h : AddsDirectories way fs made) {parts : List String} (hopen : fs.Open l parts) :
    made.Open l parts :=
  fun front hfront => h.entry?_of_some (hopen front hfront)

end AddsDirectories

/-- A location comes on the way to the end of a path. -/
def OnWay (fs : FileSystem) (p : Path) (l : Location) : Prop :=
  ∃ front, front <+: p.names ∧ l = front.foldl follow (fs.start p)

theorem onWay_place : fs.OnWay p (fs.place p) :=
  ⟨p.names, List.prefix_rfl, foldl_follow_names.symm⟩

theorem OnWay.of_isAbove (h : fs.OnWay above l) (habove : Path.IsAbove above p) : fs.OnWay p l := by
  obtain ⟨front, hfront, rfl⟩ := h
  refine ⟨front, ?_, by rw [start_of_isAbsolute habove.isAbsolute]⟩
  exact (habove.names ▸ hfront).trans (List.dropLast_prefix p.names)

theorem OnWay.congr (h : made.current = fs.current) (hl : made.OnWay p l) : fs.OnWay p l := by
  obtain ⟨front, hfront, rfl⟩ := hl
  exact ⟨front, hfront, by rw [start_congr h]⟩

/-! ## One directory -/

theorem moving_withoutSlash : Path.moving (withoutSlash p) = p.names :=
  Path.moving_rdropWhile fun part h => by simp [Path.isIdle, of_decide_eq_true h]

theorem follow_withoutSlash :
    follow ((withoutSlash p).dropLast.foldl follow (fs.start p)) ((withoutSlash p).getLastD "") =
      fs.place p := by
  rw [foldl_follow_dropLast, ← foldl_follow_moving, moving_withoutSlash, foldl_follow_names]

/-- What is made is one directory, in a directory. -/
theorem makeDirectory_eq_ok (h : fs.makeDirectory p = .ok made) :
    ∃ l name, fs.enter (fs.start p) (withoutSlash p).dropLast = .ok l ∧
      isNoName name = false ∧ name.utf8ByteSize ≤ nameLimit ∧ fs.place p = l ++ [name] ∧
      fs.entry? (l ++ [name]) = none ∧ made = fs.set (l ++ [name]) .directory := by
  unfold makeDirectory at h
  obtain ⟨-, -, h⟩ := bind_eq_ok.mp h
  obtain ⟨l, henter, h⟩ := bind_eq_ok.mp h
  dsimp only at h
  split at h
  · simp at h
  · case isFalse hname =>
    rw [Bool.not_eq_true] at hname
    obtain ⟨next, hstep, h⟩ := bind_eq_ok.mp h
    obtain ⟨rfl, hshort⟩ := step_eq_ok.mp hstep
    rw [follow_of_name hname] at h
    split at h
    · case h_1 hnone =>
      refine ⟨l, _, henter, hname, hshort hname, ?_, hnone, (Except.ok.inj h).symm⟩
      rw [← follow_of_name hname, eq_foldl_of_enter henter, follow_withoutSlash]
    · simp at h

theorem addsDirectories_of_makeDirectory (h : fs.makeDirectory p = .ok made) :
    AddsDirectories (fs.OnWay p) fs made := by
  obtain ⟨l, name, -, -, -, hplace, hnone, rfl⟩ := makeDirectory_eq_ok h
  exact AddsDirectories.set hnone (hplace ▸ onWay_place)

theorem IsTree.makeDirectory (htree : fs.IsTree) (h : fs.makeDirectory p = .ok made) :
    made.IsTree := by
  obtain ⟨l, name, henter, hname, hshort, -, -, rfl⟩ := makeDirectory_eq_ok h
  exact htree.set (directory_of_enter (htree.start p) henter) hname hshort (Or.inl rfl)

/-! ## All directories on a way -/

/-- An invariant of making one directory holds of what is made with those above it. -/
theorem makeDirectoriesUpTo_induction {P : FileSystem → Path → FileSystem → Prop}
    (hrefl : ∀ fs p, P fs p fs)
    (hone : ∀ fs p made, fs.makeDirectory p = .ok made → P fs p made)
    (habove : ∀ fs p above made, p.parent? = some above → P fs above made → P fs p made)
    (htrans : ∀ fs p made all, P fs p made → P made p all → P fs p all) (bound : Nat)
    (fs : FileSystem) (p : Path) : P fs p (makeDirectoriesUpTo bound fs p).2 := by
  induction bound generalizing fs p with
  | zero => exact hrefl fs p
  | succ bound ih =>
    rw [makeDirectoriesUpTo]
    split
    · exact hrefl fs p
    · split
      · case h_1 made hmade => exact hone fs p made hmade
      · split
        · exact hrefl fs p
        · case h_2 above hparent =>
          have hmade := habove fs p above _ hparent (ih fs above)
          split
          · case h_1 e made hup => exact (hup ▸ hmade :)
          · case h_2 made hup =>
            have hmade : P fs p made := (hup ▸ hmade :)
            split
            · case h_1 all hall => exact htrans fs p made all hmade (hone made p all hall)
            · exact hmade
      · exact hrefl fs p

theorem addsDirectories_makeDirectoriesUpTo (bound : Nat) (fs : FileSystem) (p : Path) :
    AddsDirectories (fs.OnWay p) fs (makeDirectoriesUpTo bound fs p).2 := by
  refine makeDirectoriesUpTo_induction (P := fun fs p made => AddsDirectories (fs.OnWay p) fs made)
    (fun fs p => AddsDirectories.refl _ fs) (fun fs p made => addsDirectories_of_makeDirectory)
    (fun fs p above made hparent hmade => ?_) (fun fs p made all hmade hall => ?_) _ fs p
  · exact hmade.mono fun l hl => hl.of_isAbove (Path.isAbove_of_parent? hparent)
  · exact hmade.trans (hall.mono fun l => OnWay.congr hmade.current)

theorem IsTree.makeDirectoriesUpTo (htree : fs.IsTree) (bound : Nat) (p : Path) :
    (makeDirectoriesUpTo bound fs p).2.IsTree :=
  makeDirectoriesUpTo_induction (P := fun fs _ made => fs.IsTree → made.IsTree)
    (fun _ _ => id) (fun _ _ _ h htree => htree.makeDirectory h) (fun _ _ _ _ _ => id)
    (fun _ _ _ _ hmade hall htree => hall (hmade htree)) _ fs p htree

/-! ## Ways without files -/

theorem withoutSlash_of_concat {front : List String} {last : String}
    (hparts : p.parts = front ++ [last]) (hlast : Path.isIdle last = false) :
    withoutSlash p = front ++ [last] := by
  have hne : ¬ decide (last = "") = true := by
    intro h
    simp [Path.isIdle, of_decide_eq_true h] at hlast
  rw [show withoutSlash p = p.parts.rdropWhile (· = "") from rfl, hparts]
  exact List.rdropWhile_concat_neg _ _ _ hne

theorem makeDirectory_of_noName (hcheck : checkPath p = .ok ())
    (henter : fs.enter (fs.start p) (withoutSlash p).dropLast = .ok l)
    (hname : isNoName ((withoutSlash p).getLastD "") = true) :
    fs.makeDirectory p = .error .alreadyExists := by
  simp only [makeDirectory, hcheck, henter, hname, bind, Except.bind, if_true]

theorem makeDirectory_of_name {front : List String} {name : String}
    (hcheck : checkPath p = .ok ()) (hparts : p.parts = front ++ [name])
    (henter : fs.enter (fs.start p) front = .ok l) (hname : isNoName name = false)
    (hshort : name.utf8ByteSize ≤ nameLimit) :
    fs.makeDirectory p =
      match fs.entry? (l ++ [name]) with
      | none => .ok (fs.set (l ++ [name]) .directory)
      | some _ => .error .alreadyExists := by
  have hslash := withoutSlash_of_concat hparts (Bool.or_eq_false_iff.mp hname).1
  have hstep : step l name = .ok (l ++ [name]) :=
    step_eq_ok.mpr ⟨(follow_of_name hname).symm, fun _ => hshort⟩
  simp only [makeDirectory, hcheck, hslash, List.dropLast_concat, List.getLastD_concat, henter,
    hname, hstep, bind, Except.bind]
  cases fs.entry? (l ++ [name]) with
  | none => rfl
  | some e => rfl

/-- A path without names leads to a directory that is there. -/
theorem makeDirectory_of_idle (hstart : fs.entry? (fs.start p) = some .directory)
    (hcheck : checkPath p = .ok ()) (hnames : p.names = []) :
    fs.makeDirectory p = .error .alreadyExists := by
  have hidle : ∀ part ∈ withoutSlash p, Path.isIdle part = true := by
    simpa [Path.moving, hnames] using moving_withoutSlash (p := p)
  have hmoving : Path.moving (withoutSlash p).dropLast = [] :=
    Path.moving_eq_nil fun part hpart => hidle part (List.mem_of_mem_dropLast hpart)
  have hopen : fs.Open (fs.start p) (Path.moving (withoutSlash p).dropLast) := by
    intro front hfront
    rw [hmoving, List.prefix_nil] at hfront
    exact hfront ▸ hstart
  refine makeDirectory_of_noName hcheck (enter_of_open hopen (by simp [hmoving])) ?_
  rcases List.eq_nil_or_concat' (withoutSlash p) with h | ⟨front, last, h⟩
  · rw [h]
    rfl
  · rw [h, List.getLastD_concat, isNoName, hidle last (by simp [h]), Bool.true_or]

/-- If the directory for it is there, a directory is made, or it is there already. -/
theorem makeDirectory_of_open (htree : fs.IsTree) (hcheck : checkPath p = .ok ())
    (htrimmed : p.Trimmed) (hshort : ∀ part ∈ p.names, part.utf8ByteSize ≤ nameLimit)
    (hopen : fs.Open (fs.start p) p.names.dropLast)
    (hpassable : fs.Passable (fs.start p) p.names) :
    (∃ made, fs.makeDirectory p = .ok made ∧ made.Open (made.start p) p.names) ∨
      fs.makeDirectory p = .error .alreadyExists ∧ fs.Open (fs.start p) p.names := by
  rcases htrimmed with hnone | ⟨front, last, hparts, hlast⟩
  · rw [hnone, List.dropLast_nil] at hopen
    exact Or.inr ⟨makeDirectory_of_idle (htree.start p) hcheck hnone, hnone ▸ hopen⟩
  have hnames : p.names = Path.moving front ++ [last] := by
    rw [Path.names, hparts, Path.moving_concat hlast]
  rw [hnames, List.dropLast_concat] at hopen
  rw [hnames] at hpassable hshort ⊢
  have henter := enter_of_open hopen fun part hpart => hshort part (List.mem_append_left _ hpart)
  have hdirectory := hopen _ List.prefix_rfl
  rw [← foldl_follow_moving] at henter
  by_cases hname : isNoName last
  · have hback : last = ".." := by simpa [isNoName, hlast] using hname
    have hslash := withoutSlash_of_concat hparts hlast
    refine Or.inr ⟨?_, open_concat.mpr ⟨hopen, ?_⟩⟩
    · exact makeDirectory_of_noName hcheck (by rw [hslash, List.dropLast_concat, henter])
        (by rwa [hslash, List.getLastD_concat])
    · rw [List.foldl_concat, follow, if_neg (by simp [hlast]), if_pos hback]
      exact htree.directory_above hdirectory
  · rw [Bool.not_eq_true] at hname
    have hplace : (Path.moving front ++ [last]).foldl follow (fs.start p) =
        (Path.moving front).foldl follow (fs.start p) ++ [last] := by
      rw [List.foldl_concat, follow_of_name hname]
    rw [makeDirectory_of_name hcheck hparts henter hname (hshort last (by simp))]
    split
    · case h_1 hnone =>
      have hadds : AddsDirectories (fun _ => True) fs _ := AddsDirectories.set hnone trivial
      refine Or.inl ⟨_, rfl, open_concat.mpr ⟨hadds.opens hopen, ?_⟩⟩
      rw [start_set, hplace, entry?_set (by simp), if_pos rfl]
    · case h_2 e he =>
      refine Or.inr ⟨rfl, open_concat.mpr ⟨hopen, ?_⟩⟩
      cases e with
      | directory => rw [hplace, he]
      | file content => exact absurd (hplace ▸ he) (hpassable _ List.prefix_rfl content)

/-- If something is missing on the way to a directory, it cannot be made. -/
theorem makeDirectory_notFound (hcheck : checkPath p = .ok ()) (htrimmed : p.Trimmed)
    (hne : p.names ≠ []) (hstart : fs.entry? (fs.start p) = some .directory)
    (hshort : ∀ part ∈ p.names, part.utf8ByteSize ≤ nameLimit)
    (hpassable : fs.Passable (fs.start p) p.names)
    (hclosed : ¬ fs.Open (fs.start p) p.names.dropLast) :
    fs.makeDirectory p = .error .notFound := by
  rcases htrimmed with hnone | ⟨front, last, hparts, hlast⟩
  · exact absurd hnone hne
  have hnames : p.names = Path.moving front ++ [last] := by
    rw [Path.names, hparts, Path.moving_concat hlast]
  rw [hnames, List.dropLast_concat] at hclosed
  rw [hnames] at hpassable hshort
  rcases open_or_enter_eq_notFound hstart (hpassable.of_prefix (List.prefix_append _ _))
    (fun part hpart => hshort part (List.mem_append_left _ hpart)) with hopen | henter
  · exact absurd hopen hclosed
  · simp [makeDirectory, hcheck, withoutSlash_of_concat hparts hlast, henter, bind, Except.bind]

/-- A path as operations take it, or the empty one, which stands for a directory that is there. -/
def Usable (p : Path) : Prop :=
  p.text = "" ∨ checkPath p = .ok ()

theorem checkPath_eq_ok : checkPath p = .ok () ↔
    '\x00' ∉ p.text.toList ∧ p.text ≠ "" ∧ p.text.utf8ByteSize < pathLimit := by
  unfold checkPath
  by_cases hnul : '\x00' ∈ p.text.toList
  · simp [hnul]
  · by_cases hempty : p.text = ""
    · simp [hempty]
    · by_cases hlong : pathLimit ≤ p.text.utf8ByteSize
      · simp [hnul, hempty, hlong]
      · simp [hnul, hempty, hlong, not_le.mp hlong]

theorem checkPath_of_long (hnul : '\x00' ∉ p.text.toList)
    (hlong : pathLimit ≤ p.text.utf8ByteSize) :
    checkPath p = .error .nameTooLong := by
  have hne : p.text ≠ "" := by
    intro hempty
    rw [hempty] at hlong
    exact absurd hlong (by decide)
  simp [checkPath, hnul, hne, hlong]

theorem Usable.of_isAbove (h : Usable p) (habove : Path.IsAbove above p) : Usable above := by
  obtain ⟨rest, hrest⟩ := habove.text
  by_cases hempty : above.text = ""
  · exact Or.inl hempty
  rcases h with hp | hp
  · rw [hp] at hrest
    exact absurd (String.toList_eq_nil_iff.mp (List.append_eq_nil_iff.mp hrest).1) hempty
  · obtain ⟨hnul, -, hsize⟩ := checkPath_eq_ok.mp hp
    have htext : p.text = above.text ++ String.ofList rest :=
      String.toList_inj.mp (by rw [String.toList_append, String.toList_ofList, hrest])
    refine Or.inr (checkPath_eq_ok.mpr ⟨fun hmem => hnul ?_, hempty, ?_⟩)
    · exact hrest ▸ List.mem_append_left rest hmem
    · rw [htext, String.utf8ByteSize_append] at hsize
      omega

theorem names_eq_nil_of_text (h : p.text = "") : p.names = [] := by
  obtain ⟨parts⟩ := p
  cases parts with
  | nil => rfl
  | cons part parts =>
    by_cases hnil : parts = []
    · subst hnil
      have hpart : part = "" := by simpa [Path.text] using h
      exact hpart ▸ rfl
    · rw [Path.text, String.intercalate_cons_of_ne_nil hnil] at h
      simp at h

/-- All directories on a way without files can be made. -/
theorem makeDirectoriesUpTo_ok {bound : Nat} (htree : fs.IsTree) (husable : Usable p)
    (htrimmed : p.Trimmed) (hshort : ∀ part ∈ p.names, part.utf8ByteSize ≤ nameLimit)
    (hpassable : fs.Passable (fs.start p) p.names) (hbound : p.names.length < bound) :
    ∃ made, makeDirectoriesUpTo bound fs p = (.ok (), made) ∧
      made.Open (made.start p) p.names := by
  induction bound generalizing p with
  | zero => simp at hbound
  | succ bound ih =>
    have hnil : fs.Open (fs.start p) [] := by
      intro front hfront
      rw [List.prefix_nil.mp hfront]
      exact htree.start p
    rw [makeDirectoriesUpTo]
    by_cases hempty : p.text = ""
    · rw [if_pos hempty]
      exact ⟨fs, rfl, names_eq_nil_of_text hempty ▸ hnil⟩
    have hcheck : checkPath p = .ok () := husable.resolve_left hempty
    rw [if_neg hempty]
    by_cases hopen : fs.Open (fs.start p) p.names.dropLast
    · rcases makeDirectory_of_open htree hcheck htrimmed hshort hopen hpassable with
        ⟨made, hmade, hall⟩ | ⟨hthere, hall⟩
      · rw [hmade]
        exact ⟨made, rfl, hall⟩
      · simp only [hthere, isDirectory_of_open hcheck hshort hall, if_true]
        exact ⟨fs, rfl, hall⟩
    · have hne : p.names ≠ [] := by
        intro h
        exact hopen (h ▸ hnil)
      obtain ⟨above, hparent⟩ := Path.exists_parent? hne
      have habove := Path.isAbove_of_parent? hparent
      have hstart : fs.start above = fs.start p := start_of_isAbsolute habove.isAbsolute
      have hlength : p.names.dropLast.length < bound := by
        rw [List.length_dropLast]
        have := List.length_pos_iff.mpr hne
        omega
      obtain ⟨made, hmade, habovemade⟩ := ih (husable.of_isAbove habove) habove.trimmed
        (fun part hpart => hshort part (List.mem_of_mem_dropLast (habove.names ▸ hpart)))
        (hstart ▸ habove.names ▸ hpassable.of_prefix (List.dropLast_prefix _))
        (habove.names ▸ hlength)
      have hadds : AddsDirectories (fs.OnWay above) fs made := by
        simpa only [hmade] using addsDirectories_makeDirectoriesUpTo bound fs above
      have hmadetree : made.IsTree := by
        simpa only [hmade] using htree.makeDirectoriesUpTo bound above
      rw [makeDirectory_notFound hcheck htrimmed hne (htree.start p) hshort hpassable hopen]
      simp only [hparent, hmade]
      rw [start_of_isAbsolute habove.isAbsolute, habove.names] at habovemade
      have hmadepassable : made.Passable (made.start p) p.names := by
        rw [hadds.start]
        exact hadds.passable hpassable
      rcases makeDirectory_of_open hmadetree hcheck htrimmed hshort habovemade hmadepassable with
        ⟨all, hlast, hall⟩ | ⟨hthere, hall⟩
      · rw [hlast]
        exact ⟨all, rfl, hall⟩
      · simp only [hthere, isDirectory_of_open hcheck hshort hall, if_true]
        exact ⟨made, rfl, hall⟩

theorem addsDirectories_makeDirectories (fs : FileSystem) (p : Path) :
    AddsDirectories (fs.OnWay p) fs (fs.makeDirectories p).2 :=
  addsDirectories_makeDirectoriesUpTo _ fs p

theorem IsTree.makeDirectories (htree : fs.IsTree) (p : Path) : (fs.makeDirectories p).2.IsTree :=
  htree.makeDirectoriesUpTo _ p

theorem makeDirectories_ok (htree : fs.IsTree) (husable : Usable p) (htrimmed : p.Trimmed)
    (hshort : ∀ part ∈ p.names, part.utf8ByteSize ≤ nameLimit)
    (hpassable : fs.Passable (fs.start p) p.names) :
    ∃ made, fs.makeDirectories p = (.ok (), made) ∧ made.Open (made.start p) p.names :=
  makeDirectoriesUpTo_ok htree husable htrimmed hshort hpassable
    (Nat.lt_succ_of_le (List.length_filter_le _ p.parts))

end Schemata.FileSystem
