import Schemata.FileSystem.Basic
import Schemata.Proofs.FileSystem.Path

/-!
# Where paths lead

Each part of a path leads from one location to another, whatever there is; so a path has a place,
and every operation that gets through to the end of a path comes to its place.  On the way it comes
to the places of the front parts of the path, all of which have to be directories.  Idle parts make
no difference once the start of the path is a directory.
-/

namespace Schemata.FileSystem

variable {fs made : FileSystem} {l m : Location} {part : String} {parts : List String} {p : Path}
  {e : Entry}

/-- Calls in turn give a result if each of them does. -/
theorem bind_eq_ok {ε α β : Type} {x : Except ε α} {f : α → Except ε β} {b : β} :
    x >>= f = .ok b ↔ ∃ a, x = .ok a ∧ f a = .ok b := by
  cases x with
  | error fault => simp [bind, Except.bind]
  | ok a => simp [bind, Except.bind]

/-! ## Entries -/

theorem lookup_replaceEntry (entries : List (Location × Entry)) :
    (replaceEntry l e entries).lookup m = if m = l then some e else entries.lookup m := by
  induction entries with
  | nil =>
    by_cases h : m = l
    · simp [replaceEntry, h]
    · simp [replaceEntry, List.lookup_cons, beq_false_of_ne h, h]
  | cons entry entries ih =>
    obtain ⟨k, d⟩ := entry
    by_cases hk : k = l
    · subst hk
      by_cases h : m = k
      · simp [replaceEntry, h]
      · simp [replaceEntry, List.lookup_cons, beq_false_of_ne h, h]
    · rw [replaceEntry, if_neg hk]
      by_cases h : m = k
      · simp [h, hk]
      · simp [List.lookup_cons, beq_false_of_ne h, ih]

/-- A change to the entries at one location is seen there alone, since the root is no entry. -/
theorem entry?_of_lookup {after : FileSystem} {changed : Option Entry} (hl : l ≠ [])
    (h : after.entries.lookup m = if m = l then changed else fs.entries.lookup m) :
    after.entry? m = if m = l then changed else fs.entry? m := by
  unfold FileSystem.entry?
  rw [h]
  by_cases hm : m = []
  · rw [if_pos hm, if_pos hm, if_neg (hm ▸ hl.symm)]
  · rw [if_neg hm, if_neg hm]

theorem entry?_set (hl : l ≠ []) :
    FileSystem.entry? (fs.set l e) m = if m = l then some e else fs.entry? m :=
  entry?_of_lookup hl (lookup_replaceEntry fs.entries)

@[simp] theorem start_set : (fs.set l e).start p = fs.start p :=
  rfl

theorem ne_nil_of_entry? (h : fs.entry? l ≠ some .directory) : l ≠ [] := by
  rintro rfl
  exact h rfl

/-- The content of the file at a location. -/
def file? (fs : FileSystem) (l : Location) : Option ByteArray :=
  match fs.entry? l with
  | some (.file content) => some content
  | _ => none

theorem file?_eq_some {content : ByteArray} :
    fs.file? l = some content ↔ fs.entry? l = some (.file content) := by
  unfold file?
  split
  · case h_1 found hfound => rw [hfound]; simp
  · case h_2 hnone => simpa using fun h => hnone content h

theorem file?_congr (h : made.entry? l = fs.entry? l) : made.file? l = fs.file? l := by
  rw [file?, file?, h]

theorem mem_files {content : ByteArray} (h : fs.file? l = some content) :
    (l, content) ∈ fs.files := by
  have hentry := file?_eq_some.mp h
  have hdirectory : fs.entry? l ≠ some .directory := by simp [hentry]
  have hne : l ≠ [] := ne_nil_of_entry? hdirectory
  rw [FileSystem.entry?, if_neg hne] at hentry
  obtain ⟨before, after, hentries, -⟩ := List.lookup_eq_some_iff.mp hentry
  exact List.mem_filterMap.mpr ⟨(l, .file content), by simp [hentries], rfl⟩

/-! ## Following parts -/

/-- Where a part of a path leads from a location. -/
def follow (l : Location) (part : String) : Location :=
  if Path.isIdle part then l else if part = ".." then l.dropLast else l ++ [part]

/-- The location that a path leads to. -/
def place (fs : FileSystem) (p : Path) : Location :=
  p.parts.foldl follow (fs.start p)

/-- Only the first character of a path tells where it starts. -/
theorem start_of_isAbsolute {other : Path} (h : other.isAbsolute = p.isAbsolute) :
    fs.start other = fs.start p := by
  rw [start, start, h]

theorem start_congr (h : made.current = fs.current) : made.start p = fs.start p := by
  rw [start, start, h]

theorem place_congr (h : made.current = fs.current) : made.place p = fs.place p := by
  rw [place, place, start_congr h]

theorem follow_of_isIdle (h : Path.isIdle part = true) : follow l part = l :=
  if_pos h

theorem follow_of_name (h : isNoName part = false) : follow l part = l ++ [part] := by
  rw [isNoName, Bool.or_eq_false_iff, decide_eq_false_iff_not] at h
  rw [follow, if_neg (by simp [h.1]), if_neg h.2]

theorem foldl_follow_of_names (h : ∀ part ∈ parts, isNoName part = false) :
    parts.foldl follow l = l ++ parts := by
  induction parts generalizing l with
  | nil => simp
  | cons part parts ih =>
    rw [List.forall_mem_cons] at h
    rw [List.foldl_cons, follow_of_name h.1, ih h.2, List.append_assoc, List.singleton_append]

theorem foldl_follow_moving : (Path.moving parts).foldl follow l = parts.foldl follow l := by
  induction parts generalizing l with
  | nil => rfl
  | cons part parts ih =>
    cases h : Path.isIdle part with
    | true => rw [Path.moving_cons_of_isIdle h, List.foldl_cons, follow_of_isIdle h, ih]
    | false => rw [Path.moving_cons_of_not_isIdle h, List.foldl_cons, List.foldl_cons, ih]

theorem foldl_follow_names : p.names.foldl follow (fs.start p) = fs.place p :=
  foldl_follow_moving

theorem step_eq_ok :
    step l part = .ok m ↔
      m = follow l part ∧ (isNoName part = false → part.utf8ByteSize ≤ nameLimit) := by
  unfold step follow isNoName
  by_cases hidle : Path.isIdle part = true
  · simp [hidle, @eq_comm _ l m]
  · by_cases hback : part = ".."
    · rw [if_neg hidle, if_pos hback, if_neg hidle, if_pos hback]
      simp [hback, @eq_comm _ l.dropLast m]
    · by_cases hlong : nameLimit < part.utf8ByteSize
      · simp [hidle, hback, hlong]
      · simp [hidle, hback, hlong, @eq_comm _ (l ++ [part]) m, not_lt.mp hlong]

/-- Parts lead through if the first one leads to a directory and the others lead on from there. -/
theorem enter_cons_eq_ok :
    fs.enter l (part :: parts) = .ok m ↔ ∃ next, step l part = .ok next ∧
      fs.entry? next = some .directory ∧ fs.enter next parts = .ok m := by
  rw [enter, bind_eq_ok]
  refine exists_congr fun next => and_congr_right fun _ => ?_
  cases fs.entry? next with
  | none => simp
  | some found =>
    cases found with
    | file content => simp
    | directory => simp

theorem eq_foldl_of_enter (h : fs.enter l parts = .ok m) : m = parts.foldl follow l := by
  induction parts generalizing l with
  | nil => exact (Except.ok.inj h).symm
  | cons part parts ih =>
    obtain ⟨next, hstep, -, hrest⟩ := enter_cons_eq_ok.mp h
    rw [ih hrest, List.foldl_cons, (step_eq_ok.mp hstep).1]

/-- Where parts lead there is a directory, if there is one at the start. -/
theorem directory_of_enter (hl : fs.entry? l = some .directory) (h : fs.enter l parts = .ok m) :
    fs.entry? m = some .directory := by
  induction parts generalizing l with
  | nil => exact Except.ok.inj h ▸ hl
  | cons part parts ih =>
    obtain ⟨next, -, hnext, hrest⟩ := enter_cons_eq_ok.mp h
    exact ih hnext hrest

/-- What is entered in one file system is entered in any other that has the same directories. -/
theorem enter_mono
    (hdirectories : ∀ l, fs.entry? l = some .directory → made.entry? l = some .directory)
    (h : fs.enter l parts = .ok m) : made.enter l parts = .ok m := by
  induction parts generalizing l with
  | nil => exact h
  | cons part parts ih =>
    obtain ⟨next, hstep, hnext, hrest⟩ := enter_cons_eq_ok.mp h
    exact enter_cons_eq_ok.mpr ⟨next, hstep, hdirectories next hnext, ih hrest⟩

theorem enter_moving (hl : fs.entry? l = some .directory) :
    fs.enter l (Path.moving parts) = fs.enter l parts := by
  induction parts generalizing l with
  | nil => rfl
  | cons part parts ih =>
    cases h : Path.isIdle part with
    | true =>
      rw [Path.moving_cons_of_isIdle h, enter, step, if_pos h]
      simp only [bind, Except.bind, hl]
      exact ih hl
    | false =>
      rw [Path.moving_cons_of_not_isIdle h, enter, enter]
      cases step l part with
      | error e => rfl
      | ok next =>
        simp only [bind, Except.bind]
        split
        · rfl
        · rfl
        · case h_3 hnext => exact ih hnext

/-- No place on the way is a file. -/
def Passable (fs : FileSystem) (l : Location) (parts : List String) : Prop :=
  ∀ front, front <+: parts → ∀ content, fs.entry? (front.foldl follow l) ≠ some (.file content)

/-- Every place on the way is a directory. -/
def Open (fs : FileSystem) (l : Location) (parts : List String) : Prop :=
  ∀ front, front <+: parts → fs.entry? (front.foldl follow l) = some .directory

theorem Open.passable (h : fs.Open l parts) : fs.Passable l parts := by
  intro front hfront content
  rw [h front hfront]
  simp

theorem open_cons : fs.Open l (part :: parts) ↔
    fs.entry? l = some .directory ∧ fs.Open (follow l part) parts := by
  constructor
  · exact fun h => ⟨h [] List.nil_prefix, fun front hfront =>
      h (part :: front) (List.cons_prefix_cons.mpr ⟨rfl, hfront⟩)⟩
  · rintro ⟨hl, h⟩ front hfront
    cases front with
    | nil => exact hl
    | cons first front =>
      obtain ⟨rfl, hrest⟩ := List.cons_prefix_cons.mp hfront
      exact h front hrest

theorem Open.of_prefix {front : List String} (h : fs.Open l parts) (hfront : front <+: parts) :
    fs.Open l front :=
  fun more hmore => h more (hmore.trans hfront)

theorem Passable.of_prefix {front : List String} (h : fs.Passable l parts)
    (hfront : front <+: parts) : fs.Passable l front :=
  fun more hmore => h more (hmore.trans hfront)

theorem open_concat : fs.Open l (parts ++ [part]) ↔
    fs.Open l parts ∧ fs.entry? ((parts ++ [part]).foldl follow l) = some .directory := by
  constructor
  · exact fun h => ⟨h.of_prefix (List.prefix_append parts [part]), h _ List.prefix_rfl⟩
  · rintro ⟨h, hlast⟩ front hfront
    rcases List.prefix_concat_iff.mp hfront with rfl | hfront
    · exact hlast
    · exact h front hfront

/-- What is got through leads through directories. -/
theorem open_of_enter (hl : fs.entry? l = some .directory) (h : fs.enter l parts = .ok m) :
    fs.Open l (Path.moving parts) := by
  rw [← enter_moving hl] at h
  generalize Path.moving parts = names at h ⊢
  induction names generalizing l with
  | nil =>
    intro front hfront
    rw [List.prefix_nil.mp hfront]
    exact hl
  | cons part names ih =>
    obtain ⟨next, hstep, hnext, hrest⟩ := enter_cons_eq_ok.mp h
    obtain ⟨rfl, -⟩ := step_eq_ok.mp hstep
    exact open_cons.mpr ⟨hl, ih hnext hrest⟩

/-- Parts lead through if every place on the way is a directory. -/
theorem enter_of_open (h : fs.Open l (Path.moving parts))
    (hshort : ∀ part ∈ Path.moving parts, part.utf8ByteSize ≤ nameLimit) :
    fs.enter l parts = .ok (parts.foldl follow l) := by
  have hl : fs.entry? l = some .directory := h [] List.nil_prefix
  rw [← enter_moving hl, ← foldl_follow_moving]
  generalize Path.moving parts = names at h hshort
  induction names generalizing l with
  | nil => rfl
  | cons part names ih =>
    rw [List.forall_mem_cons] at hshort
    have hrest := (open_cons.mp h).2
    have hnext : fs.entry? (follow l part) = some .directory := hrest [] List.nil_prefix
    exact enter_cons_eq_ok.mpr
      ⟨_, step_eq_ok.mpr ⟨rfl, fun _ => hshort.1⟩, hnext, ih hnext hrest hshort.2⟩

/-- Parts without a file on the way lead through, or something is missing. -/
theorem open_or_enter_eq_notFound (hl : fs.entry? l = some .directory)
    (h : fs.Passable l (Path.moving parts))
    (hshort : ∀ part ∈ Path.moving parts, part.utf8ByteSize ≤ nameLimit) :
    fs.Open l (Path.moving parts) ∨ fs.enter l parts = .error .notFound := by
  rw [← enter_moving hl]
  generalize Path.moving parts = names at h hshort
  induction names generalizing l with
  | nil =>
    refine Or.inl fun front hfront => ?_
    rw [List.prefix_nil.mp hfront]
    exact hl
  | cons part names ih =>
    rw [List.forall_mem_cons] at hshort
    rw [enter, step_eq_ok.mpr ⟨rfl, fun _ => hshort.1⟩]
    simp only [bind, Except.bind]
    have hrest : fs.Passable (follow l part) names := fun front hfront =>
      h (part :: front) (List.cons_prefix_cons.mpr ⟨rfl, hfront⟩)
    cases hnext : fs.entry? (follow l part) with
    | none => exact Or.inr rfl
    | some e =>
      cases e with
      | file content => exact absurd hnext (hrest [] List.nil_prefix content)
      | directory => exact (ih hnext hrest hshort.2).imp (fun hopen => open_cons.mpr ⟨hl, hopen⟩) id

/-- A prefix ends in the first list or goes on into the second. -/
theorem prefix_or_append {front more : List String} (h : front <+: parts ++ more) :
    front <+: parts ∨ ∃ rest, front = parts ++ rest ∧ rest <+: more := by
  rcases List.prefix_or_prefix_of_prefix h (List.prefix_append parts more) with
    hshort | ⟨rest, hlong⟩
  · exact Or.inl hshort
  · subst hlong
    exact Or.inr ⟨rest, rfl, (List.prefix_append_right_inj parts).mp h⟩

theorem open_append {more : List String} :
    fs.Open l (parts ++ more) ↔ fs.Open l parts ∧ fs.Open (parts.foldl follow l) more := by
  induction parts generalizing l with
  | nil =>
    exact ⟨fun h => ⟨fun front hfront => List.prefix_nil.mp hfront ▸ h [] List.nil_prefix, h⟩,
      And.right⟩
  | cons part parts ih =>
    rw [List.cons_append, open_cons, open_cons, ih, and_assoc, List.foldl_cons]

/-! ## Whole paths -/

theorem locate_eq_ok :
    fs.locate p = .ok l ↔ checkPath p = .ok () ∧ ∃ directory,
      fs.enter (fs.start p) p.parts.dropLast = .ok directory ∧
        step directory (p.parts.getLastD "") = .ok l := by
  rw [locate, bind_eq_ok]
  simp only [bind_eq_ok]
  constructor
  · rintro ⟨⟨⟩, hcheck, hrest⟩
    exact ⟨hcheck, hrest⟩
  · rintro ⟨hcheck, hrest⟩
    exact ⟨⟨⟩, hcheck, hrest⟩

/-- Following all parts is following the last one after the others. -/
theorem foldl_follow_dropLast :
    follow (parts.dropLast.foldl follow l) (parts.getLastD "") = parts.foldl follow l := by
  rcases List.eq_nil_or_concat' parts with rfl | ⟨front, last, rfl⟩
  · exact follow_of_isIdle rfl
  · rw [List.dropLast_concat, List.getLastD_concat, List.foldl_concat]

theorem place_of_locate (h : fs.locate p = .ok l) : l = fs.place p := by
  obtain ⟨-, directory, henter, hstep⟩ := locate_eq_ok.mp h
  rw [place, ← foldl_follow_dropLast, ← eq_foldl_of_enter henter]
  exact (step_eq_ok.mp hstep).1

theorem locate_mono
    (hdirectories : ∀ l, fs.entry? l = some .directory → made.entry? l = some .directory)
    (hcurrent : made.current = fs.current) (h : fs.locate p = .ok l) : made.locate p = .ok l := by
  obtain ⟨hcheck, directory, henter, hstep⟩ := locate_eq_ok.mp h
  exact locate_eq_ok.mpr
    ⟨hcheck, directory, start_congr hcurrent ▸ enter_mono hdirectories henter, hstep⟩

/-- The last part of a path is short if it leads anywhere. -/
theorem short_getLastD (hshort : ∀ part ∈ Path.moving parts, part.utf8ByteSize ≤ nameLimit)
    (h : isNoName (parts.getLastD "") = false) : (parts.getLastD "").utf8ByteSize ≤ nameLimit := by
  rcases List.eq_nil_or_concat' parts with rfl | ⟨front, last, rfl⟩
  · simp [isNoName, Path.isIdle] at h
  · rw [List.getLastD_concat] at h ⊢
    rw [isNoName, Bool.or_eq_false_iff] at h
    exact hshort last (by simp [Path.moving_concat h.1])

theorem locate_of_open (hcheck : checkPath p = .ok ())
    (hshort : ∀ part ∈ p.names, part.utf8ByteSize ≤ nameLimit)
    (hopen : fs.Open (fs.start p) (Path.moving p.parts.dropLast)) :
    fs.locate p = .ok (fs.place p) := by
  have hfront : Path.moving p.parts.dropLast <+: p.names := (List.dropLast_prefix p.parts).filter _
  refine locate_eq_ok.mpr ⟨hcheck, _, enter_of_open hopen fun part hpart =>
    hshort part (hfront.subset hpart), step_eq_ok.mpr ⟨?_, short_getLastD hshort⟩⟩
  exact foldl_follow_dropLast.symm

theorem isDirectory_of_open (hcheck : checkPath p = .ok ())
    (hshort : ∀ part ∈ p.names, part.utf8ByteSize ≤ nameLimit)
    (hopen : fs.Open (fs.start p) p.names) : fs.isDirectory p = true := by
  have hentry : fs.entry? (fs.place p) = some .directory :=
    foldl_follow_names (p := p) ▸ hopen p.names List.prefix_rfl
  have hfront : Path.moving p.parts.dropLast <+: p.names := (List.dropLast_prefix p.parts).filter _
  simp [isDirectory, locate_of_open hcheck hshort (hopen.of_prefix hfront), hentry]

theorem read_of_missing (h : fs.locate p = .ok l) (hl : fs.entry? l = none) :
    fs.read p = .error .notFound := by
  simp [read, h, hl, bind, Except.bind]

theorem read_of_enter {fault : FileError} (hcheck : checkPath p = .ok ())
    (h : fs.enter (fs.start p) p.parts.dropLast = .error fault) : fs.read p = .error fault := by
  simp [read, locate, hcheck, h, bind, Except.bind]

theorem read_eq_ok {content : ByteArray} :
    fs.read p = .ok content ↔ ∃ l, fs.locate p = .ok l ∧ fs.entry? l = some (.file content) := by
  rw [read, bind_eq_ok]
  refine exists_congr fun l => and_congr_right fun _ => ?_
  split
  · case h_1 hentry => simp [hentry]
  · case h_2 hentry => simp [hentry]
  · case h_3 hentry => simp [hentry]

theorem file?_of_read {content : ByteArray} (h : fs.read p = .ok content) :
    fs.file? (fs.place p) = some content := by
  obtain ⟨l, hlocate, hentry⟩ := read_eq_ok.mp h
  exact file?_eq_some.mpr (place_of_locate hlocate ▸ hentry)

theorem checkPath_of_read {content : ByteArray} (h : fs.read p = .ok content) :
    checkPath p = .ok () := by
  obtain ⟨l, hlocate, -⟩ := read_eq_ok.mp h
  exact (locate_eq_ok.mp hlocate).1

/-! ## Trees -/

/-- Every entry is in a directory, under a name that a path can lead to; so is the location that
relative paths start from. -/
structure IsTree (fs : FileSystem) : Prop where
  above : ∀ l name e, fs.entry? (l ++ [name]) = some e → fs.entry? l = some .directory
  named : ∀ l name e, fs.entry? (l ++ [name]) = some e →
    isNoName name = false ∧ name.utf8ByteSize ≤ nameLimit
  current : fs.entry? fs.current = some .directory

theorem IsTree.start (h : fs.IsTree) (p : Path) : fs.entry? (fs.start p) = some .directory := by
  unfold FileSystem.start
  split
  · rfl
  · exact h.current

/-- All locations above an entry are directories. -/
theorem IsTree.directory_of_append (h : fs.IsTree) {rest : Location} (hrest : rest ≠ [])
    (hentry : fs.entry? (l ++ rest) = some e) : fs.entry? l = some .directory := by
  induction rest generalizing l with
  | nil => exact absurd rfl hrest
  | cons name rest ih =>
    by_cases hnil : rest = []
    · subst hnil
      exact h.above l name e hentry
    · rw [List.append_cons] at hentry
      exact h.above l name .directory (ih hnil hentry)

theorem IsTree.directory_above (h : fs.IsTree) (hl : fs.entry? l = some .directory) :
    fs.entry? l.dropLast = some .directory := by
  rcases List.eq_nil_or_concat' l with rfl | ⟨front, last, rfl⟩
  · rfl
  · rw [List.dropLast_concat]
    exact h.above front last .directory hl

/-- An entry is found under names. -/
theorem IsTree.names (h : fs.IsTree) (hentry : fs.entry? l = some e) :
    ∀ name ∈ l, isNoName name = false ∧ name.utf8ByteSize ≤ nameLimit := by
  intro name hname
  obtain ⟨front, rest, rfl⟩ := List.append_of_mem hname
  by_cases hrest : rest = []
  · subst hrest
    exact h.named front name e hentry
  · rw [List.append_cons] at hentry
    exact h.named front name .directory (h.directory_of_append hrest hentry)

/-- The way from the root to a directory leads through directories. -/
theorem IsTree.open_of_directory (h : fs.IsTree) (hl : fs.entry? l = some .directory) :
    fs.Open [] l := by
  rintro front ⟨rest, rfl⟩
  have hnames := h.names hl
  rw [foldl_follow_of_names fun name hname => (hnames name (List.mem_append_left rest hname)).1,
    List.nil_append]
  by_cases hrest : rest = []
  · rwa [hrest, List.append_nil] at hl
  · exact h.directory_of_append hrest hl

/-- A tree stays one if an entry is put into a directory, and no directory is replaced by a file. -/
theorem IsTree.set (h : fs.IsTree) {name : String} (hl : fs.entry? l = some .directory)
    (hname : isNoName name = false) (hshort : name.utf8ByteSize ≤ nameLimit)
    (hkept : e = .directory ∨ fs.entry? (l ++ [name]) ≠ some .directory) :
    (fs.set (l ++ [name]) e).IsTree := by
  have hne : l ++ [name] ≠ [] := by simp
  have hdirectory : ∀ m, fs.entry? m = some .directory →
      FileSystem.entry? (fs.set (l ++ [name]) e) m = some .directory := by
    intro m hm
    rw [entry?_set hne]
    split
    · case isTrue heq =>
      subst heq
      rcases hkept with rfl | hkept
      · rfl
      · exact absurd hm hkept
    · exact hm
  refine ⟨fun m other d hentry => ?_, fun m other d hentry => ?_, hdirectory _ h.current⟩
  · rw [entry?_set hne] at hentry
    split at hentry
    · case isTrue heq =>
      obtain ⟨rfl, -⟩ := List.append_inj' heq rfl
      exact hdirectory _ hl
    · exact hdirectory _ (h.above m other d hentry)
  · rw [entry?_set hne] at hentry
    split at hentry
    · case isTrue heq =>
      obtain ⟨-, hother⟩ := List.append_inj' heq rfl
      rw [List.singleton_inj] at hother
      exact hother ▸ ⟨hname, hshort⟩
    · exact h.named m other d hentry

end Schemata.FileSystem
