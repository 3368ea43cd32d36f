import Mathlib.Data.String.Basic
import Schemata.Proofs.FileSystem.Directories

/-!
# Storing files

Storing a file either fails and leaves all files as they are, or changes the file at its place and
no other: the temporary file comes and goes where there was nothing.
-/

namespace Schemata.FileSystem

variable {fs made created after : FileSystem} {l m temporary : Location} {p directory : Path}
  {content : ByteArray} {e : Entry} {way : Location → Prop}

/-! ## Entries that are taken away -/

theorem lookup_filter_ne (entries : List (Location × Entry)) :
    (entries.filter (·.1 ≠ l)).lookup m = if m = l then none else entries.lookup m := by
  induction entries with
  | nil => simp
  | cons entry entries ih =>
    obtain ⟨k, d⟩ := entry
    by_cases hk : k = l
    · rw [List.filter_cons_of_neg (by simp [hk]), ih, hk]
      by_cases h : m = l
      · rw [if_pos h, if_pos h]
      · rw [if_neg h, if_neg h, List.lookup_cons, beq_false_of_ne h]
    · rw [List.filter_cons_of_pos (by simp [hk])]
      by_cases h : m = k
      · subst h
        simp [hk]
      · rw [List.lookup_cons, List.lookup_cons, beq_false_of_ne h, ih]

theorem entry?_erase (hl : l ≠ []) :
    FileSystem.entry? (fs.erase l) m = if m = l then none else fs.entry? m :=
  entry?_of_lookup hl (lookup_filter_ne fs.entries)

/-- Both have the same entries and the same start of relative paths. -/
structure Alike (fs after : FileSystem) : Prop where
  current : after.current = fs.current
  entry? : ∀ l, after.entry? l = fs.entry? l

theorem Alike.isTree (h : Alike fs after) (htree : fs.IsTree) : after.IsTree where
  above l name e he := by
    rw [h.entry?] at he ⊢
    exact htree.above l name e he
  named l name e he := htree.named l name e (h.entry? _ ▸ he)
  current := by
    rw [h.current, h.entry?]
    exact htree.current

/-! ## Temporary files -/

theorem createFile_eq_ok (h : fs.createFile p = .ok (l, created)) :
    fs.locate p = .ok l ∧ fs.entry? l = none ∧ created = fs.set l (.file .empty) := by
  rw [createFile, bind_eq_ok] at h
  obtain ⟨found, hlocate, h⟩ := h
  split at h
  · case h_1 hnone =>
    obtain ⟨rfl, rfl⟩ := Prod.mk.inj (Except.ok.inj h)
    exact ⟨hlocate, hnone, rfl⟩
  · simp at h

/-- The path of a temporary file. -/
def temporaryPath (fs : FileSystem) (directory : Path) (n : Nat) : Path :=
  (fs.absolute directory).join (temporaryName n)

theorem temporaryPath_congr (h : made.current = fs.current) :
    made.temporaryPath directory = fs.temporaryPath directory := by
  funext n
  rw [temporaryPath, temporaryPath, absolute, absolute, h]

theorem createTemporary_eq_ok {n : Nat} (h : fs.createTemporary directory n = .ok (l, created)) :
    (∃ k, fs.locate (fs.temporaryPath directory k) = .ok l) ∧ fs.entry? l = none ∧
      created = fs.set l (.file .empty) := by
  induction n with
  | zero => simp [createTemporary] at h
  | succ n ih =>
    rw [createTemporary] at h
    split at h
    · case h_1 hcreate =>
      obtain ⟨hlocate, hcreated⟩ := createFile_eq_ok (hcreate.trans (congrArg _ (Except.ok.inj h)))
      exact ⟨⟨n, hlocate⟩, hcreated⟩
    · exact ih h
    · simp at h

/-- A name for a temporary file is found if one is free and no path is too long. -/
theorem createTemporary_ok {n : Nat} {locations : Nat → Location}
    (hlocate : ∀ k, fs.locate (fs.temporaryPath directory k) = .ok (locations k))
    (hfree : ∃ k < n, fs.entry? (locations k) = none) :
    ∃ created, fs.createTemporary directory n = .ok created := by
  induction n with
  | zero => simp at hfree
  | succ n ih =>
    rw [createTemporary]
    cases hentry : fs.entry? (locations n) with
    | none =>
      have hcreate : fs.createFile (fs.temporaryPath directory n) =
          .ok (locations n, fs.set (locations n) (.file .empty)) := by
        simp only [createFile, hlocate, bind, Except.bind, hentry]
      rw [temporaryPath] at hcreate
      exact ⟨_, by rw [hcreate]⟩
    | some e =>
      have hcreate : fs.createFile (fs.temporaryPath directory n) = .error .alreadyExists := by
        simp only [createFile, hlocate, bind, Except.bind, hentry]
      rw [temporaryPath] at hcreate
      simp only [hcreate]
      obtain ⟨k, hk, hfree⟩ := hfree
      rcases Nat.lt_succ_iff_lt_or_eq.mp hk with hlt | rfl
      · exact ih ⟨k, hlt, hfree⟩
      · simp [hfree] at hentry

/-! ## Moving a file to its place -/

theorem length_withoutSlash_lt (h : withoutSlash p ≠ p.parts) :
    (withoutSlash p).length < p.parts.length := by
  have hfront : withoutSlash p <+: p.parts := List.rdropWhile_prefix _ _
  exact lt_of_le_of_ne hfront.length_le fun heq => h (hfront.eq_of_length heq)

/-- A file can be put at the location of a path that ends in a name, unless there is a directory. -/
theorem destination_eq_ok :
    fs.destination p = .ok l ↔
      fs.locate p = .ok l ∧ withoutSlash p = p.parts ∧ isNoName (p.parts.getLastD "") = false ∧
        fs.entry? l ≠ some .directory := by
  rw [locate_eq_ok]
  unfold destination
  by_cases hnul : p.text.toList.contains '\x00' = true
  · have hcheck : checkPath p ≠ .ok () := fun h => (checkPath_eq_ok.mp h).1 (by simpa using hnul)
    rw [if_pos hnul]
    exact iff_of_false (by simp) fun h => hcheck h.1.1
  · rw [if_neg hnul]
    simp only [bind_eq_ok]
    constructor
    · rintro ⟨⟨⟩, hcheck, directory, henter, h⟩
      split at h
      · simp at h
      · case isFalse hname =>
        obtain ⟨found, hstep, h⟩ := bind_eq_ok.mp h
        split at h
        · simp at h
        · case isFalse hlength =>
          have hslash : withoutSlash p = p.parts := by
            by_contra hne
            exact hlength (length_withoutSlash_lt hne)
          rw [hslash] at henter hname hstep
          split at h
          · simp at h
          · case h_2 hentry =>
            obtain rfl := Except.ok.inj h
            exact ⟨⟨hcheck, directory, henter, hstep⟩, hslash, by simpa using hname, hentry⟩
    · rintro ⟨⟨hcheck, directory, henter, hstep⟩, hslash, hname, hentry⟩
      refine ⟨⟨⟩, hcheck, directory, by rwa [hslash], ?_⟩
      rw [hslash, if_neg (Bool.eq_false_iff.mp hname), bind_eq_ok]
      refine ⟨l, hstep, ?_⟩
      rw [if_neg (Nat.lt_irrefl _)]
      split
      · contradiction
      · rfl

/-- In an open directory a file can be put at a name, unless that is a directory. -/
theorem destination_of_open {front : List String} {name : String}
    (habove : Path.IsAbove directory p) (hparts : p.parts = front ++ [name])
    (hname : isNoName name = false) (hcheck : checkPath p = .ok ())
    (hshort : ∀ part ∈ p.names, part.utf8ByteSize ≤ nameLimit)
    (hopen : fs.Open (fs.start directory) directory.names)
    (hplace : fs.entry? (fs.place p) ≠ some .directory) :
    fs.destination p = .ok (fs.place p) := by
  have hidle := (Bool.or_eq_false_iff.mp hname).1
  have hfront : Path.moving p.parts.dropLast = directory.names := by
    rw [habove.names, Path.names, hparts, List.dropLast_concat, Path.moving_concat hidle,
      List.dropLast_concat]
  rw [start_of_isAbsolute habove.isAbsolute, ← hfront] at hopen
  exact destination_eq_ok.mpr ⟨locate_of_open hcheck hshort hopen,
    by rw [withoutSlash_of_concat hparts hidle, hparts],
    by rwa [hparts, List.getLastD_concat], hplace⟩

/-- A place that a file can be put at is a name in a directory that is there. -/
theorem exists_name_of_destination (htree : fs.IsTree) (h : fs.destination p = .ok l) :
    ∃ directory name, l = directory ++ [name] ∧ fs.entry? directory = some .directory ∧
      isNoName name = false ∧ name.utf8ByteSize ≤ nameLimit ∧
      fs.Open (fs.start p) (Path.moving p.parts.dropLast) := by
  obtain ⟨hlocate, -, hname, -⟩ := destination_eq_ok.mp h
  obtain ⟨-, directory, henter, hstep⟩ := locate_eq_ok.mp hlocate
  obtain ⟨rfl, hshort⟩ := step_eq_ok.mp hstep
  exact ⟨directory, _, follow_of_name hname, directory_of_enter (htree.start p) henter, hname,
    hshort hname, open_of_enter (htree.start p) henter⟩

/-- What is stored is put into the place of a file or of nothing. -/
theorem moveFile_eq_ok (h : fs.moveFile temporary p = .ok after) :
    ∃ l content, fs.destination p = .ok l ∧ fs.entry? temporary = some (.file content) ∧
      after = (fs.erase temporary).set l (.file content) := by
  rw [moveFile, bind_eq_ok] at h
  obtain ⟨l, hdestination, h⟩ := h
  split at h
  · case h_1 content hentry => exact ⟨l, content, hdestination, hentry, (Except.ok.inj h).symm⟩
  · simp at h

/-! ## Storing -/

/-- A temporary file where there was nothing. -/
structure Borrowed (made : FileSystem) (temporary : Location) (content : ByteArray)
    (written : FileSystem) : Prop where
  free : made.entry? temporary = none
  current : written.current = made.current
  entry? : ∀ m, written.entry? m = if m = temporary then some (.file content) else made.entry? m

namespace Borrowed

variable {written : FileSystem}

theorem ne_nil (h : Borrowed made temporary content written) : temporary ≠ [] :=
  ne_nil_of_entry? (by simp [h.free] : made.entry? temporary ≠ some .directory)

theorem directory_iff (h : Borrowed made temporary content written) (m : Location) :
    written.entry? m = some .directory ↔ made.entry? m = some .directory := by
  rw [h.entry?]
  by_cases hm : m = temporary
  · simp [hm, h.free]
  · rw [if_neg hm]

/-- Without the temporary file all is as before. -/
theorem alike_erase (h : Borrowed made temporary content written) :
    Alike made (written.erase temporary) := by
  refine ⟨h.current, fun m => ?_⟩
  rw [entry?_erase h.ne_nil, h.entry?]
  by_cases hm : m = temporary
  · rw [if_pos hm, hm, h.free]
  · rw [if_neg hm, if_neg hm]

theorem destination_iff (h : Borrowed made temporary content written) :
    written.destination p = .ok l ↔ made.destination p = .ok l := by
  have hlocate : written.locate p = .ok l ↔ made.locate p = .ok l :=
    ⟨locate_mono (fun m => (h.directory_iff m).mp) h.current.symm,
      locate_mono (fun m => (h.directory_iff m).mpr) h.current⟩
  rw [destination_eq_ok, destination_eq_ok, hlocate, Ne, Ne, h.directory_iff]

end Borrowed

theorem borrowed_of_createTemporary {n : Nat}
    (h : made.createTemporary directory n = .ok (temporary, created)) :
    Borrowed made temporary content (created.set temporary (.file content)) := by
  obtain ⟨-, hfree, rfl⟩ := createTemporary_eq_ok h
  have hne : temporary ≠ [] :=
    ne_nil_of_entry? (by simp [hfree] : made.entry? temporary ≠ some .directory)
  refine ⟨hfree, rfl, fun m => ?_⟩
  rw [entry?_set hne, entry?_set hne]
  by_cases hm : m = temporary
  · rw [if_pos hm, if_pos hm]
  · rw [if_neg hm, if_neg hm, if_neg hm]

theorem Alike.addsDirectories (h : Alike made after) (hmade : AddsDirectories way fs made) :
    AddsDirectories way fs after :=
  ⟨h.current.trans hmade.current, fun l => by rw [h.entry?]; exact hmade.entry? l⟩

/-- If storing fails, at most some directories are left. -/
theorem addsDirectories_of_storeFile {fault : StoringFault}
    (h : fs.storeFile directory p content = (.error fault, after)) :
    AddsDirectories (fs.OnWay directory) fs after := by
  have hadds := addsDirectories_makeDirectories fs directory
  unfold storeFile at h
  split at h
  · case h_1 e made hmade =>
    rw [hmade] at hadds
    exact (Prod.mk.inj h).2 ▸ hadds
  · case h_2 made hmade =>
    rw [hmade] at hadds
    split at h
    · exact (Prod.mk.inj h).2 ▸ hadds
    · case h_2 temporary created hcreated =>
      simp only at h
      split at h
      · simp at h
      · obtain rfl := (Prod.mk.inj h).2
        exact (borrowed_of_createTemporary hcreated).alike_erase.addsDirectories hadds

/-- If storing succeeds, some directories are made and then the file is put into its place. -/
theorem exists_destination_of_storeFile
    (h : fs.storeFile directory p content = (.ok (), after)) :
    ∃ made l, AddsDirectories (fs.OnWay directory) fs made ∧ (fs.IsTree → made.IsTree) ∧
      made.destination p = .ok l ∧ Alike (made.set l (.file content)) after := by
  have hadds := addsDirectories_makeDirectories fs directory
  have htree := fun htree : fs.IsTree => htree.makeDirectories directory
  unfold storeFile at h
  split at h
  · simp at h
  · case h_2 made hmade =>
    rw [hmade] at hadds htree
    split at h
    · simp at h
    · case h_2 temporary created hcreated =>
      have hborrowed : Borrowed made temporary content _ := borrowed_of_createTemporary hcreated
      simp only at h
      split at h
      · case h_1 stored hmove =>
        obtain ⟨-, rfl⟩ := Prod.mk.inj h
        obtain ⟨l, moved, hdestination, hmoved, rfl⟩ := moveFile_eq_ok hmove
        rw [hborrowed.entry?, if_pos rfl, Option.some.injEq, Entry.file.injEq] at hmoved
        subst hmoved
        rw [hborrowed.destination_iff] at hdestination
        refine ⟨made, l, hadds, htree, hdestination, hborrowed.current, fun m => ?_⟩
        have hne : l ≠ [] := ne_nil_of_entry? (destination_eq_ok.mp hdestination).2.2.2
        rw [entry?_set hne, entry?_set hne, hborrowed.alike_erase.entry?]
      · simp at h

/-- A file that was put at its destination is there, and all else is as it was. -/
theorem Alike.entry?_of_destination (h : Alike (made.set l (.file content)) after)
    (hdestination : made.destination p = .ok l) (m : Location) :
    after.entry? m = if m = l then some (.file content) else made.entry? m := by
  have hne : l ≠ [] := ne_nil_of_entry? (destination_eq_ok.mp hdestination).2.2.2
  rw [h.entry?, entry?_set hne]

/-- No directory is lost to a file that is put at its destination. -/
theorem Alike.directory_of_destination (h : Alike (made.set l (.file content)) after)
    (hdestination : made.destination p = .ok l) {m : Location}
    (hm : made.entry? m = some .directory) : after.entry? m = some .directory := by
  have hne : m ≠ l := by
    rintro rfl
    exact (destination_eq_ok.mp hdestination).2.2.2 hm
  rw [h.entry?_of_destination hdestination, if_neg hne, hm]

/-! ## Temporary paths -/

theorem toList_temporaryName (n : Nat) :
    (temporaryName n).toList =
      ['.', 't', 'm', 'p'] ++ [5, 4, 3, 2, 1, 0].map fun i => Nat.digitChar (n / 10 ^ i % 10) := by
  rw [temporaryName, String.toList_append]
  exact congrArg (['.', 't', 'm', 'p'] ++ ·) String.toList_ofList

/-- A temporary name has few characters to choose from, all of one byte. -/
theorem mem_temporaryName {n : Nat} {c : Char} (h : c ∈ (temporaryName n).toList) :
    c ≠ '/' ∧ c ≠ '\x00' ∧ c.utf8Size = 1 := by
  have hdigit : ∀ d < 10, Nat.digitChar d ≠ '/' ∧ Nat.digitChar d ≠ '\x00' ∧
      (Nat.digitChar d).utf8Size = 1 := by decide
  rw [toList_temporaryName, List.mem_append, List.mem_map] at h
  rcases h with hfixed | ⟨i, -, rfl⟩
  · simp only [List.mem_cons, List.not_mem_nil, or_false] at hfixed
    rcases hfixed with rfl | rfl | rfl | rfl <;> decide
  · exact hdigit _ (Nat.mod_lt _ (by decide))

theorem slash_not_mem_temporaryName (n : Nat) : '/' ∉ (temporaryName n).toList :=
  fun h => (mem_temporaryName h).1 rfl

theorem utf8Len_eq_length {cs : List Char} (h : ∀ c ∈ cs, c.utf8Size = 1) :
    String.utf8Len cs = cs.length := by
  induction cs with
  | nil => rfl
  | cons c cs ih =>
    rw [List.forall_mem_cons] at h
    rw [String.utf8Len_cons, ih h.2, h.1, List.length_cons]

theorem utf8ByteSize_temporaryName (n : Nat) : (temporaryName n).utf8ByteSize = 10 := by
  rw [← String.ofList_toList (s := temporaryName n), String.utf8ByteSize_ofList,
    utf8Len_eq_length fun c hc => (mem_temporaryName hc).2.2, toList_temporaryName]
  rfl

theorem isNoName_temporaryName (n : Nat) : isNoName (temporaryName n) = false := by
  have hne : ∀ s : String, s.utf8ByteSize ≠ 10 → temporaryName n ≠ s := by
    rintro s hs rfl
    exact hs (utf8ByteSize_temporaryName n)
  simp [isNoName, Path.isIdle, hne "" (by decide), hne "." (by decide), hne ".." (by decide)]

theorem parts_temporaryPath (n : Nat) :
    (fs.temporaryPath directory n).parts =
      (fs.absolute directory).leading ++ [temporaryName n] := by
  rw [temporaryPath, Path.parts_join, Path.parts_ofText_of_not_mem (slash_not_mem_temporaryName n)]

/-- All temporary paths in a directory have the same length. -/
theorem checkPath_temporaryPath {k n : Nat}
    (h : checkPath (fs.temporaryPath directory k) = .ok ()) :
    checkPath (fs.temporaryPath directory n) = .ok () := by
  obtain ⟨before, htext⟩ := Path.exists_text_join (fs.absolute directory)
  obtain ⟨hnul, -, hsize⟩ := checkPath_eq_ok.mp h
  rw [temporaryPath, htext] at hnul hsize
  rw [String.utf8ByteSize_append, utf8ByteSize_temporaryName] at hsize
  refine checkPath_eq_ok.mpr ?_
  rw [temporaryPath, htext]
  refine ⟨fun hmem => ?_, fun hempty => ?_, ?_⟩
  · rw [String.toList_append, List.mem_append] at hmem hnul
    rcases hmem with hmem | hmem
    · exact hnul (Or.inl hmem)
    · exact (mem_temporaryName hmem).2.1 rfl
  · have hsize : (before ++ temporaryName n).utf8ByteSize = 0 := by rw [hempty]; rfl
    rw [String.utf8ByteSize_append, utf8ByteSize_temporaryName] at hsize
    omega
  · rwa [String.utf8ByteSize_append, utf8ByteSize_temporaryName]

/-- The absolute path leads through the same directories to the same place. -/
theorem open_absolute (htree : fs.IsTree) (hopen : fs.Open (fs.start p) p.names) :
    fs.Open [] (fs.absolute p).names ∧ (fs.absolute p).names.foldl follow [] = fs.place p := by
  unfold absolute
  split
  · case isTrue h =>
    have hstart : fs.start p = [] := if_pos h
    rw [hstart] at hopen
    exact ⟨hopen, by rw [← foldl_follow_names, hstart]⟩
  · case isFalse h =>
    have hstart : fs.start p = fs.current := if_neg h
    have hcurrent := htree.names htree.current
    have hnames : Path.names ⟨"" :: fs.current ++ p.parts⟩ = fs.current ++ p.names := by
      rw [Path.names, List.cons_append, Path.moving_cons_of_isIdle rfl, Path.moving_append,
        Path.moving_eq_self fun name hname => (Bool.or_eq_false_iff.mp (hcurrent name hname).1).1,
        Path.names]
    have hfollow : fs.current.foldl follow [] = fs.current := by
      rw [foldl_follow_of_names fun name hname => (hcurrent name hname).1, List.nil_append]
    rw [hstart] at hopen
    rw [hnames, open_append, List.foldl_append, hfollow, ← hstart, foldl_follow_names, hstart]
    exact ⟨⟨htree.open_of_directory htree.current, hopen⟩, rfl⟩

theorem isAbsolute_absolute (hparts : p.parts ≠ []) : (fs.absolute p).isAbsolute = true := by
  unfold absolute
  split
  · case isTrue h => exact h
  · rw [List.cons_append, Path.isAbsolute_cons]
    simp [hparts]

theorem short_absolute (htree : fs.IsTree)
    (hshort : ∀ part ∈ p.names, part.utf8ByteSize ≤ nameLimit) :
    ∀ part ∈ (fs.absolute p).names, part.utf8ByteSize ≤ nameLimit := by
  unfold absolute
  split
  · exact hshort
  · intro part hpart
    rw [Path.names, List.cons_append, Path.moving_cons_of_isIdle rfl, Path.moving_append,
      List.mem_append] at hpart
    rcases hpart with hpart | hpart
    · exact (htree.names htree.current part (List.mem_of_mem_filter hpart)).2
    · exact hshort part hpart

/-- A temporary path leads to its name in the directory. -/
theorem locate_temporaryPath (htree : fs.IsTree) (hparts : directory.parts ≠ [])
    (hshort : ∀ part ∈ directory.names, part.utf8ByteSize ≤ nameLimit)
    (hopen : fs.Open (fs.start directory) directory.names) (n : Nat)
    (hcheck : checkPath (fs.temporaryPath directory n) = .ok ()) :
    fs.locate (fs.temporaryPath directory n) = .ok (fs.place directory ++ [temporaryName n]) := by
  obtain ⟨hopen, hplace⟩ := open_absolute htree hopen
  have hparts' : (fs.temporaryPath directory n).parts =
      (fs.absolute directory).leading ++ [temporaryName n] := parts_temporaryPath n
  have hname := isNoName_temporaryName n
  have hnames : (fs.temporaryPath directory n).names =
      (fs.absolute directory).names ++ [temporaryName n] := by
    rw [Path.names, hparts', Path.moving_concat (Bool.or_eq_false_iff.mp hname).1,
      Path.moving_leading]
  have hstart : fs.start (fs.temporaryPath directory n) = [] := by
    have hrelative : (Path.ofText (temporaryName n)).isAbsolute = false := by
      rw [Path.isAbsolute, Path.parts_ofText_of_not_mem (slash_not_mem_temporaryName n)]
      rfl
    refine if_pos ?_
    rw [temporaryPath, Path.isAbsolute_join hrelative, isAbsolute_absolute hparts]
  have hshort' : ∀ part ∈ (fs.temporaryPath directory n).names,
      part.utf8ByteSize ≤ nameLimit := by
    rw [hnames]
    intro part hpart
    rcases List.mem_append.mp hpart with hpart | hpart
    · exact short_absolute htree hshort part hpart
    · rw [List.mem_singleton.mp hpart, utf8ByteSize_temporaryName]
      decide
  have hway : fs.Open (fs.start (fs.temporaryPath directory n))
      (Path.moving (fs.temporaryPath directory n).parts.dropLast) := by
    rw [hstart, hparts', List.dropLast_concat, Path.moving_leading]
    exact hopen
  rw [locate_of_open hcheck hshort' hway, ← foldl_follow_names, hstart, hnames, List.foldl_concat,
    hplace, follow_of_name hname]

/-! ## Storing gets through -/

/-- A file is stored if no place on the way is a file, a name for the temporary file is free, and
no directory is in the place of the file. -/
theorem storeFile_ok {front : List String} {name : String} (htree : fs.IsTree)
    (habove : Path.IsAbove directory p) (hparts : p.parts = front ++ [name])
    (hname : isNoName name = false) (hcheck : checkPath p = .ok ())
    (htemporary : checkPath (fs.temporaryPath directory 0) = .ok ())
    (hshort : ∀ part ∈ p.names, part.utf8ByteSize ≤ nameLimit)
    (hpassable : fs.Passable (fs.start p) p.names.dropLast)
    (hfree : ∃ k < temporaryAttempts,
      fs.entry? (fs.place directory ++ [temporaryName k]) = none ∧
        ¬ fs.OnWay directory (fs.place directory ++ [temporaryName k]))
    (hplace : fs.entry? (fs.place p) ≠ some .directory ∧ ¬ fs.OnWay directory (fs.place p)) :
    ∃ after, fs.storeFile directory p content = (.ok (), after) := by
  have hstart : fs.start directory = fs.start p := start_of_isAbsolute habove.isAbsolute
  have hshort' : ∀ part ∈ directory.names, part.utf8ByteSize ≤ nameLimit := fun part hpart =>
    hshort part (List.mem_of_mem_dropLast (habove.names ▸ hpart))
  have hadds := addsDirectories_makeDirectories fs directory
  have hmadetree := htree.makeDirectories directory
  obtain ⟨made, hmade, hopen⟩ := makeDirectories_ok htree (Usable.of_isAbove (Or.inr hcheck) habove)
    habove.trimmed hshort' (hstart ▸ habove.names ▸ hpassable)
  rw [hmade] at hadds hmadetree
  have hcurrent : made.temporaryPath directory = fs.temporaryPath directory :=
    temporaryPath_congr hadds.current
  have hlocate : ∀ k, made.locate (made.temporaryPath directory k) =
      .ok (made.place directory ++ [temporaryName k]) := fun k =>
    locate_temporaryPath hmadetree habove.ne_nil hshort' hopen k
      (hcurrent ▸ checkPath_temporaryPath htemporary)
  obtain ⟨⟨temporary, created⟩, hcreated⟩ : ∃ created,
      made.createTemporary directory temporaryAttempts = .ok created := by
    obtain ⟨k, hk, hnone, hway⟩ := hfree
    refine createTemporary_ok hlocate ⟨k, hk, ?_⟩
    rw [hadds.place, hadds.entry?_of_not_way hway, hnone]
  have hborrowed : Borrowed made temporary content _ := borrowed_of_createTemporary hcreated
  have hdestination : made.destination p = .ok (made.place p) := by
    refine destination_of_open habove hparts hname hcheck hshort hopen ?_
    rw [hadds.place, hadds.entry?_of_not_way hplace.2]
    exact hplace.1
  have hmove : ∃ stored, (created.set temporary (.file content)).moveFile temporary p =
      .ok stored := by
    rw [moveFile, hborrowed.destination_iff.mpr hdestination, hborrowed.entry?, if_pos rfl]
    exact ⟨_, rfl⟩
  obtain ⟨stored, hstored⟩ := hmove
  exact ⟨stored, by simp only [storeFile, hmade, hcreated, hstored]⟩

end Schemata.FileSystem
