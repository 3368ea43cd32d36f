import Schemata.Proofs.Store.Keys
import Schemata.Proofs.Store.Memory

/-!
# The store in a directory against the store in memory

Whatever the key and whatever there is, a `put` that fails leaves all files as they are, and one
that succeeds changes one file.  Below a fresh root, with tidy keys of which none leads through the
file for another, every request gets the answer that the store in memory gives.
-/

namespace Schemata

open FileSystem (AddsDirectories isNoName nameLimit follow temporaryName temporaryAttempts)

/-! ## Requests -/

namespace Store

/-- What is asked of a store. -/
inductive Request where
  | get (key : String)
  | put (key : String) (bytes : ByteArray)

/-- What a store answers. -/
inductive Reply where
  | found (answer : Lookup)
  | kept (answer : Except StoreError Unit)

/-- The key of a request. -/
def Request.key : Request → String
  | get key => key
  | put key _ => key

variable {σ : Type}

/-- A store answers one request. -/
def reply (s : Store σ) (state : σ) : Request → Reply × σ
  | .get key => (.found (s.get state key), state)
  | .put key bytes => (.kept (s.put state key bytes).1, (s.put state key bytes).2)

/-- The answers to requests, one after the other. -/
def replies (s : Store σ) : σ → List Request → List Reply
  | _, [] => []
  | state, r :: rest => (s.reply state r).1 :: s.replies (s.reply state r).2 rest

end Store

namespace DirectoryStore

variable {root : Path} {key : String} {bytes : ByteArray} {fs fresh after : FileSystem}
  {m : MemoryStore} {keys : List String}

/-! ## One request, whatever there is -/

theorem addsDirectories_of_put {fault : StoreError}
    (h : (store root).put fs key bytes = (.error fault, after)) :
    AddsDirectories (fs.OnWay (directoryOf root key)) fs after := by
  simp only [store] at h
  split at h
  · simp at h
  · case h_2 made hstore =>
    exact FileSystem.addsDirectories_of_storeFile ((Prod.mk.inj h).2 ▸ hstore)

theorem storeFile_of_put (h : (store root).put fs key bytes = (.ok (), after)) :
    fs.storeFile (directoryOf root key) (keyPath root key) bytes = (.ok (), after) := by
  simp only [store] at h
  split at h
  · case h_1 hstore => exact (Prod.mk.inj h).2 ▸ hstore
  · simp at h

theorem get_of_read {fault : FileError} (h : fs.read (keyPath root key) = .error fault)
    (hfault : fault ≠ .notFound) :
    (store root).get fs key = .error (.unreadable key fault.message) := by
  simp only [store, h]

/-- A key cannot be read if the path of its file is too long. -/
theorem get_of_long (hnul : '\x00' ∉ (keyPath root key).text.toList)
    (hlong : FileSystem.pathLimit ≤ (keyPath root key).text.utf8ByteSize) :
    (store root).get fs key = .error (.unreadable key FileError.nameTooLong.message) := by
  refine get_of_read ?_ (by decide)
  rw [FileSystem.read, FileSystem.locate, FileSystem.checkPath_of_long hnul hlong]
  rfl

/-- A `put` that succeeds changes the file at its path and no other. -/
theorem exists_location_of_put (h : (store root).put fs key bytes = (.ok (), after)) :
    ∃ l, after.locate (keyPath root key) = .ok l ∧ after.file? l = some bytes ∧
      ∀ other, other ≠ l → after.file? other = fs.file? other := by
  obtain ⟨made, l, hadds, -, hdestination, halike⟩ :=
    FileSystem.exists_destination_of_storeFile (storeFile_of_put h)
  have hlocate := (FileSystem.destination_eq_ok.mp hdestination).1
  have hentry := halike.entry?_of_destination hdestination
  refine ⟨l, FileSystem.locate_mono (fun _ => halike.directory_of_destination hdestination)
    halike.current hlocate, ?_, fun other hother => ?_⟩
  · rw [FileSystem.file?_eq_some, hentry, if_pos rfl]
  · rw [← hadds.file? other]
    exact FileSystem.file?_congr (by rw [hentry, if_neg hother])

theorem current_of_put (h : (store root).put fs key bytes = (.ok (), after)) :
    after.current = fs.current := by
  obtain ⟨made, l, hadds, -, -, halike⟩ :=
    FileSystem.exists_destination_of_storeFile (storeFile_of_put h)
  exact halike.current.trans hadds.current

/-! ## A fresh root and tidy keys -/

/-- Nothing is below the place of the root, no file is in the way to it, and the way does not lead
through places below it. -/
structure Fresh (fs : FileSystem) (root : Path) : Prop where
  passable : fs.Passable (fs.start root) root.names
  short : ∀ part ∈ root.names, part.utf8ByteSize ≤ nameLimit
  empty : ∀ rest, rest ≠ [] → fs.entry? (fs.place root ++ rest) = none
  straight : ∀ rest, rest ≠ [] → ¬ fs.OnWay root (fs.place root ++ rest)

/-- Tidy keys of which none leads through the file for another, with paths that are short enough
for their files and for temporary files beside them, and a name that is left for these. -/
structure Fit (fs : FileSystem) (root : Path) (keys : List String) : Prop where
  tidy : ∀ key ∈ keys, TidyKey key
  within : ∀ key ∈ keys, FileSystem.checkPath (keyPath root key) = .ok () ∧
    FileSystem.checkPath (fs.temporaryPath (directoryOf root key) 0) = .ok ()
  apart : ∀ key ∈ keys, ∀ other ∈ keys,
    (Path.ofText key).parts <+: (Path.ofText other).parts → key = other
  free : ∃ n < temporaryAttempts, ∀ key ∈ keys, temporaryName n ∉ (Path.ofText key).parts

/-- Keys of the cache need no more than room. -/
theorem fit_cacheKeys {names : List String}
    (hwithin : ∀ name ∈ names, FileSystem.checkPath (keyPath root (cacheKey name)) = .ok () ∧
      FileSystem.checkPath (fs.temporaryPath (directoryOf root (cacheKey name)) 0) = .ok ()) :
    Fit fs root (names.map cacheKey) := by
  refine ⟨?_, ?_, ?_, 0, by decide, ?_⟩
  · simp only [List.forall_mem_map]
    exact fun name _ => (tidyKey_cacheKey name).2
  · simpa only [List.forall_mem_map] using hwithin
  · simp only [List.forall_mem_map]
    intro name _ other _ hstarts
    rw [(tidyKey_cacheKey name).1, (tidyKey_cacheKey other).1] at hstarts
    -- not by computation, which would go into the digests
    have hlength : [cacheKey name].length = [cacheKey other].length := by
      rw [List.length_singleton, List.length_singleton]
    exact List.singleton_inj.mp (hstarts.eq_of_length hlength)
  · simp only [List.forall_mem_map]
    intro name _ hmem
    rw [(tidyKey_cacheKey name).1, List.mem_singleton] at hmem
    obtain ⟨cs, hkey, -, hdigits⟩ := exists_digits_of_cacheKey name
    have hpoint : '.' ∈ cs := by
      rw [← String.toList_ofList (l := cs), ← hkey, ← hmem, FileSystem.toList_temporaryName]
      exact List.mem_cons_self
    exact (hdigits _ hpoint).2.1 rfl

/-- What stands below the root for the entries of a store in memory: a file for a key with bytes,
and directories on the way to the files. -/
inductive Stands (m : MemoryStore) (keys : List String) : List String → Entry → Prop where
  | file {key : String} {bytes : ByteArray} (hkey : key ∈ keys) (hfind : m.find? key = some bytes) :
    Stands m keys (Path.ofText key).parts (.file bytes)
  | directory {key : String} {rest : List String} (hkey : key ∈ keys)
    (hrest : rest <+: (Path.ofText key).parts) (hne : rest ≠ (Path.ofText key).parts) :
    Stands m keys rest .directory

theorem Stands.exists_key {rest : List String} {e : Entry} (h : Stands m keys rest e) :
    ∃ key ∈ keys, rest <+: (Path.ofText key).parts := by
  cases h with
  | file hkey _ => exact ⟨_, hkey, List.prefix_rfl⟩
  | directory hkey hrest _ => exact ⟨_, hkey, hrest⟩

theorem Stands.insert {rest : List String} {e : Entry} (h : Stands m keys rest e)
    (hne : rest ≠ (Path.ofText key).parts) : Stands (m.insert key bytes) keys rest e := by
  cases h with
  | @file other found hother hfind =>
    have hkey : other ≠ key := by
      rintro rfl
      exact hne rfl
    exact .file hother ((MemoryStore.find?_insert_of_ne hkey).trans hfind)
  | directory hother hrest hproper => exact .directory hother hrest hproper

/-- The files below the root are the entries of the store in memory. -/
structure Mirrors (fresh : FileSystem) (root : Path) (keys : List String) (fs : FileSystem)
    (m : MemoryStore) : Prop where
  current : fs.current = fresh.current
  tree : fs.IsTree
  passable : fs.Passable (fs.start root) root.names
  below : ∀ rest, rest ≠ [] → ∀ e, fs.entry? (fs.place root ++ rest) = some e → Stands m keys rest e
  stored : ∀ key ∈ keys, ∀ bytes, m.find? key = some bytes →
    fs.entry? (fs.place root ++ (Path.ofText key).parts) = some (.file bytes) ∧
      fs.Open (fs.start root) root.names
  writable : m.readOnly = false

theorem Fresh.mirrors (h : Fresh fs root) (htree : fs.IsTree) :
    Mirrors fs root keys fs MemoryStore.empty where
  current := rfl
  tree := htree
  passable := h.passable
  below rest hrest e he := by simp [h.empty rest hrest] at he
  stored key _ bytes hfind := by simp [MemoryStore.find?, MemoryStore.empty] at hfind
  writable := rfl

/-- Parts do not fit in before their last one. -/
theorem not_prefix_dropLast : ¬ (Path.ofText key).parts <+: (Path.ofText key).parts.dropLast := by
  intro h
  have hlength := h.length_le
  have hpos : 0 < (Path.ofText key).parts.length :=
    List.length_pos_iff.mpr Path.parts_ofText_ne_nil
  rw [List.length_dropLast] at hlength
  omega

namespace Mirrors

variable (hmirrors : Mirrors fresh root keys fs m) (hfit : Fit fresh root keys)
include hmirrors hfit

/-- Nothing but the file for a key stands in its place. -/
theorem entry?_place (hkey : key ∈ keys) :
    fs.entry? (fs.place root ++ (Path.ofText key).parts) = (m.find? key).map .file := by
  cases hfind : m.find? key with
  | some bytes => exact (hmirrors.stored key hkey bytes hfind).1
  | none =>
    by_contra hne
    obtain ⟨e, he⟩ := Option.ne_none_iff_exists'.mp hne
    have hstands := hmirrors.below _ Path.parts_ofText_ne_nil e he
    generalize hparts : (Path.ofText key).parts = parts at hstands
    cases hstands with
    | @file other bytes hother hfound =>
      obtain rfl := (hfit.tidy key hkey).injective (hfit.tidy other hother) hparts
      simp [hfind] at hfound
    | @directory other _ hother hrest hne =>
      subst hparts
      exact hne (congrArg (fun k => (Path.ofText k).parts) (hfit.apart key hkey other hother hrest))

/-- No file is in the way to the file for a key. -/
theorem passable_directoryOf (hkey : key ∈ keys) :
    fs.Passable (fs.start root) (root.names ++ (Path.ofText key).parts.dropLast) := by
  have htidy := hfit.tidy key hkey
  intro front hfront content hfile
  rcases FileSystem.prefix_or_append hfront with hroot | ⟨more, rfl, hmore⟩
  · exact hmirrors.passable front hroot content hfile
  · have hstarts := hmore.trans (List.dropLast_prefix _)
    rw [List.foldl_append, FileSystem.foldl_follow_names, place_append htidy hstarts] at hfile
    by_cases hnil : more = []
    · rw [hnil, List.append_nil, ← FileSystem.foldl_follow_names] at hfile
      exact hmirrors.passable root.names List.prefix_rfl content hfile
    · have hstands := hmirrors.below more hnil _ hfile
      generalize hother : more = parts at hstands
      cases hstands with
      | @file other bytes hkeys hfound =>
        obtain rfl := hfit.apart other hkeys key hkey (hother ▸ hstarts)
        exact not_prefix_dropLast (hother ▸ hmore)

/-- The directory of a file that stands below the root is open. -/
theorem open_directoryOf (hkey : key ∈ keys) (hfind : m.find? key = some bytes) :
    fs.Open (fs.start root) (root.names ++ (Path.ofText key).parts.dropLast) := by
  obtain ⟨hentry, hopen⟩ := hmirrors.stored key hkey bytes hfind
  refine FileSystem.open_append.mpr ⟨hopen, fun front hfront => ?_⟩
  have htidy := hfit.tidy key hkey
  rw [FileSystem.foldl_follow_names, place_append htidy (hfront.trans (List.dropLast_prefix _))]
  obtain ⟨rest, hrest⟩ := hfront.trans (List.dropLast_prefix _)
  have hne : rest ≠ [] := by
    rintro rfl
    rw [List.append_nil] at hrest
    exact not_prefix_dropLast (hrest ▸ hfront)
  rw [← hrest, ← List.append_assoc] at hentry
  exact hmirrors.tree.directory_of_append hne hentry

/-- A key is answered with the bytes in memory. -/
theorem get_eq (hfresh : Fresh fresh root) (hkey : key ∈ keys) :
    (store root).get fs key = .ok (m.find? key) := by
  have htidy := hfit.tidy key hkey
  have hcheck := (hfit.within key hkey).1
  have hshort := short_keyPath htidy hfresh.short
  have hentry := hmirrors.entry?_place hfit hkey
  rw [← place_keyPath htidy] at hentry
  have hopen : fs.Open (fs.start (keyPath root key))
      (Path.moving (keyPath root key).parts.dropLast) →
        fs.locate (keyPath root key) = .ok (fs.place (keyPath root key)) :=
    FileSystem.locate_of_open hcheck hshort
  rw [moving_dropLast_keyPath htidy, start_keyPath htidy] at hopen
  simp only [store]
  cases hfind : m.find? key with
  | some bytes =>
    rw [hfind, Option.map_some] at hentry
    have hlocate := hopen (hmirrors.open_directoryOf hfit hkey hfind)
    rw [FileSystem.read_eq_ok.mpr ⟨_, hlocate, hentry⟩]
  | none =>
    rw [hfind, Option.map_none] at hentry
    have hpassable := hmirrors.passable_directoryOf hfit hkey
    have hread : fs.read (keyPath root key) = .error .notFound := by
      have hway : fs.Passable (fs.start (keyPath root key))
          (Path.moving (keyPath root key).parts.dropLast) := by
        rwa [moving_dropLast_keyPath htidy, start_keyPath htidy]
      rcases FileSystem.open_or_enter_eq_notFound (hmirrors.tree.start (keyPath root key)) hway
          (fun part hpart => hshort part (((List.dropLast_prefix _).filter _).subset hpart))
        with hway | hmissing
      · rw [moving_dropLast_keyPath htidy, start_keyPath htidy] at hway
        exact FileSystem.read_of_missing (hopen hway) hentry
      · exact FileSystem.read_of_enter hcheck hmissing
    rw [hread]

omit hfit in
/-- The way to the directory of a file leads through no other places below the root. -/
theorem not_onWay (hfresh : Fresh fresh root) (htidy : TidyKey key) {rest : List String}
    (hrest : rest ≠ []) (hoff : ¬ rest <+: (Path.ofText key).parts.dropLast) :
    ¬ fs.OnWay (directoryOf root key) (fs.place root ++ rest) := by
  have hplace : fs.place root = fresh.place root := FileSystem.place_congr hmirrors.current
  intro hway
  rcases onWay_directoryOf htidy hway with hroot | ⟨front, -, hfront, heq⟩
  · exact hfresh.straight rest hrest (hplace ▸ hroot.congr hmirrors.current)
  · exact hoff (List.append_cancel_left heq ▸ hfront)

/-- A `put` is accepted. -/
theorem exists_put (hfresh : Fresh fresh root) (hkey : key ∈ keys) (bytes : ByteArray) :
    ∃ after, (store root).put fs key bytes = (.ok (), after) := by
  have htidy := hfit.tidy key hkey
  obtain ⟨hcheck, htemporary⟩ := hfit.within key hkey
  obtain ⟨front, name, hparts⟩ : ∃ front name, (Path.ofText key).parts = front ++ [name] :=
    (List.eq_nil_or_concat' _).resolve_left Path.parts_ofText_ne_nil
  have hstore : ∃ after, fs.storeFile (directoryOf root key) (keyPath root key) bytes =
      (.ok (), after) := by
    have hlast : (keyPath root key).parts = (root.leading ++ front) ++ [name] := by
      rw [parts_keyPath htidy, hparts, List.append_assoc]
    refine FileSystem.storeFile_ok hmirrors.tree (isAbove_directoryOf htidy) hlast
      (htidy.names name (by simp [hparts])) hcheck ?_ (short_keyPath htidy hfresh.short) ?_ ?_ ?_
    · rwa [FileSystem.temporaryPath, FileSystem.absolute, hmirrors.current]
    · rw [names_keyPath htidy, start_keyPath htidy,
        List.dropLast_append_of_ne_nil Path.parts_ofText_ne_nil]
      exact hmirrors.passable_directoryOf hfit hkey
    · obtain ⟨n, hn, hfree⟩ := hfit.free
      refine ⟨n, hn, ?_⟩
      rw [place_directoryOf htidy, List.append_assoc]
      refine ⟨?_, hmirrors.not_onWay hfresh htidy (by simp) fun hfront => ?_⟩
      · by_contra hne
        obtain ⟨e, he⟩ := Option.ne_none_iff_exists'.mp hne
        have hstands := hmirrors.below _ (by simp) e he
        obtain ⟨other, hother, hfront⟩ := hstands.exists_key
        exact hfree other hother (hfront.subset (by simp))
      · simpa using hfront.length_le
    · rw [place_keyPath htidy, hmirrors.entry?_place hfit hkey]
      refine ⟨?_, hmirrors.not_onWay hfresh htidy Path.parts_ofText_ne_nil not_prefix_dropLast⟩
      cases m.find? key with
      | none => simp
      | some bytes => simp
  obtain ⟨after, hstore⟩ := hstore
  rw [directoryOf] at hstore
  exact ⟨after, by simp only [store, hstore]⟩

/-- After a `put` the files below the root are the entries of the store in memory again. -/
theorem mirrors_insert (hfresh : Fresh fresh root) (hkey : key ∈ keys)
    (h : (store root).put fs key bytes = (.ok (), after)) :
    Mirrors fresh root keys after (m.insert key bytes) := by
  have htidy := hfit.tidy key hkey
  obtain ⟨made, l, hadds, hmadetree, hdestination, halike⟩ :=
    FileSystem.exists_destination_of_storeFile (storeFile_of_put h)
  obtain ⟨hlocate, -, -, hnotdirectory⟩ := FileSystem.destination_eq_ok.mp hdestination
  have hl : l = fs.place root ++ (Path.ofText key).parts := by
    rw [FileSystem.place_of_locate hlocate, hadds.place, place_keyPath htidy]
  obtain ⟨directory, name, hname, hdirectory, hisname, hshort, hopen⟩ :=
    FileSystem.exists_name_of_destination (hmadetree hmirrors.tree) hdestination
  have hcurrent : after.current = fs.current := current_of_put h
  have hplace : after.place root = fs.place root := FileSystem.place_congr hcurrent
  have hentry := halike.entry?_of_destination hdestination
  have hopenroot : made.Open (fs.start root) root.names := by
    rw [moving_dropLast_keyPath htidy, start_keyPath htidy, hadds.start] at hopen
    exact hopen.of_prefix (List.prefix_append _ _)
  have hafteropen : after.Open (after.start root) root.names := by
    rw [FileSystem.start_congr hcurrent]
    exact fun front hfront => halike.directory_of_destination hdestination (hopenroot front hfront)
  refine ⟨hcurrent.trans hmirrors.current, ?_, hafteropen.passable, ?_, ?_, hmirrors.writable⟩
  · refine halike.isTree ?_
    subst hname
    exact (hmadetree hmirrors.tree).set hdirectory hisname hshort (Or.inr hnotdirectory)
  · intro rest hrest e he
    rw [hplace, hentry, hl] at he
    by_cases hsame : rest = (Path.ofText key).parts
    · subst hsame
      rw [if_pos rfl, Option.some.injEq] at he
      subst he
      exact .file hkey MemoryStore.find?_insert
    · rw [if_neg fun heq => hsame (List.append_cancel_left heq)] at he
      rcases hadds.entry? (fs.place root ++ rest) with hkept | ⟨-, hmade, hway⟩
      · rw [hkept] at he
        exact (hmirrors.below rest hrest e he).insert hsame
      · obtain rfl : Entry.directory = e := by simpa [hmade] using he
        have hfront : rest <+: (Path.ofText key).parts.dropLast := by
          by_contra hoff
          exact hmirrors.not_onWay hfresh htidy hrest hoff hway
        exact .directory hkey (hfront.trans (List.dropLast_prefix _)) hsame
  · intro other hother found hfind
    refine ⟨?_, hafteropen⟩
    rw [hplace, hentry, hl]
    by_cases heq : other = key
    · subst heq
      rw [MemoryStore.find?_insert] at hfind
      rw [if_pos rfl, Option.some.inj hfind]
    · rw [MemoryStore.find?_insert_of_ne heq] at hfind
      rw [if_neg fun hparts => heq
        ((hfit.tidy other hother).injective htidy (List.append_cancel_left hparts))]
      exact hadds.entry?_of_some (hmirrors.stored other hother found hfind).1

/-- A request is answered alike, and the files below the root stay the entries in memory. -/
theorem reply_eq (hfresh : Fresh fresh root) {r : Store.Request} (hkey : r.key ∈ keys) :
    ((store root).reply fs r).1 = (MemoryStore.store.reply m r).1 ∧
      Mirrors fresh root keys ((store root).reply fs r).2 (MemoryStore.store.reply m r).2 := by
  cases r with
  | get key =>
    simp only [Store.reply, MemoryStore.store]
    exact ⟨congrArg _ (hmirrors.get_eq hfit hfresh hkey), hmirrors⟩
  | put key bytes =>
    change key ∈ keys at hkey
    obtain ⟨after, hput⟩ := hmirrors.exists_put hfit hfresh hkey bytes
    simp only [Store.reply, MemoryStore.store, hput, hmirrors.writable, Bool.false_eq_true,
      if_false]
    exact ⟨trivial, hmirrors.mirrors_insert hfit hfresh hkey hput⟩

/-- All requests are answered alike. -/
theorem replies_eq (hfresh : Fresh fresh root) {requests : List Store.Request}
    (hkeys : ∀ r ∈ requests, r.key ∈ keys) :
    (store root).replies fs requests = MemoryStore.store.replies m requests := by
  induction requests generalizing fs m with
  | nil => rfl
  | cons r requests ih =>
    rw [List.forall_mem_cons] at hkeys
    obtain ⟨hreply, hnext⟩ := hmirrors.reply_eq hfit hfresh hkeys.1
    rw [Store.replies, Store.replies, hreply, ih hnext hkeys.2]

end Mirrors

/-! ## All requests -/

/-- Whatever there is, a `put` that fails leaves all files as they are, and one that succeeds
changes the file at the path of its key and no other.  Below a fresh root, requests with tidy keys
are answered as by the store in memory; keys of the cache are such keys. -/
theorem puts_are_atomic_and_replies_as_in_memory (root : Path) :
    (∀ fs key bytes fault after, (store root).put fs key bytes = (.error fault, after) →
      ∀ l, after.file? l = fs.file? l) ∧
    (∀ fs key bytes after, (store root).put fs key bytes = (.ok (), after) →
      ∃ l, after.locate (keyPath root key) = .ok l ∧ after.file? l = some bytes ∧
        ∀ other, other ≠ l → after.file? other = fs.file? other) ∧
    (∀ (fs : FileSystem) (requests : List Store.Request), fs.IsTree → Fresh fs root →
      Fit fs root (requests.map Store.Request.key) →
        (store root).replies fs requests =
          MemoryStore.store.replies MemoryStore.empty requests) ∧
    ∀ (fs : FileSystem) (names : List String),
      (∀ name ∈ names, FileSystem.checkPath (keyPath root (cacheKey name)) = .ok () ∧
        FileSystem.checkPath (fs.temporaryPath (directoryOf root (cacheKey name)) 0) = .ok ()) →
      Fit fs root (names.map cacheKey) := by
  refine ⟨fun fs key bytes fault after h l => (addsDirectories_of_put h).file? l,
    fun fs key bytes after => exists_location_of_put, fun fs requests htree hfresh hfit => ?_,
    fun fs names => fit_cacheKeys⟩
  exact (hfresh.mirrors htree).replies_eq hfit hfresh fun r hr => List.mem_map_of_mem hr

/-- Nothing but the root directory. -/
def bare : FileSystem :=
  ⟨[], []⟩

theorem isTree_bare : bare.IsTree where
  above l name e h := by simp [FileSystem.entry?, bare] at h
  named l name e h := by simp [FileSystem.entry?, bare] at h
  current := rfl

theorem entry?_bare {l : Location} : bare.entry? l = if l = [] then some .directory else none :=
  rfl

theorem start_bare (p : Path) : bare.start p = [] := by
  unfold FileSystem.start
  split
  · rfl
  · rfl

theorem fresh_bare (hnames : ∀ part ∈ root.names, isNoName part = false)
    (hshort : ∀ part ∈ root.names, part.utf8ByteSize ≤ nameLimit) : Fresh bare root := by
  have hplace : bare.place root = root.names := by
    rw [← FileSystem.foldl_follow_names, start_bare, FileSystem.foldl_follow_of_names hnames,
      List.nil_append]
  refine ⟨fun front hfront content hfile => ?_, hshort, fun rest hrest => ?_,
    fun rest hrest hway => ?_⟩
  · rw [entry?_bare] at hfile
    split at hfile
    · simp at hfile
    · simp at hfile
  · rw [entry?_bare, if_neg (by simp [hrest])]
  · obtain ⟨front, hfront, heq⟩ := hway
    rw [hplace, start_bare,
      FileSystem.foldl_follow_of_names fun part hpart => hnames part (hfront.subset hpart),
      List.nil_append] at heq
    have hlength := hfront.length_le
    rw [← heq, List.length_append] at hlength
    have := List.length_pos_iff.mpr hrest
    omega

/-- Reading and writing two keys, one of them in a directory. -/
def visits : List Store.Request :=
  [.get "built/a", .put "built/a" ⟨#[1]⟩, .put "b" ⟨#[2]⟩, .put "built/a" ⟨#[3]⟩, .get "built/a",
    .get "b"]

theorem fit_visits : Fit bare ⟨["cache"]⟩ (visits.map Store.Request.key) := by
  have hkeys : ∀ key ∈ visits.map Store.Request.key, key = "built/a" ∨ key = "b" := by
    simp [visits, Store.Request.key]
  refine ⟨fun key hkey => ?_, fun key hkey => ?_, fun key hkey other hother => ?_,
    0, by decide, fun key hkey => ?_⟩
  · rcases hkeys key hkey with rfl | rfl
    · exact ⟨⟨by decide, rfl, rfl, by decide⟩, by decide⟩
    · exact ⟨⟨by decide, rfl, rfl, by decide⟩, by decide⟩
  · rcases hkeys key hkey with rfl | rfl
    · exact ⟨rfl, rfl⟩
    · exact ⟨rfl, rfl⟩
  · rcases hkeys key hkey with rfl | rfl
    · rcases hkeys other hother with rfl | rfl
      · decide
      · decide
    · rcases hkeys other hother with rfl | rfl
      · decide
      · decide
  · rcases hkeys key hkey with rfl | rfl
    · decide
    · decide

theorem visits_reply_as_in_memory :
    bare.IsTree ∧ Fresh bare ⟨["cache"]⟩ ∧ Fit bare ⟨["cache"]⟩ (visits.map Store.Request.key) ∧
      (store ⟨["cache"]⟩).replies bare visits =
        [.found (.ok none), .kept (.ok ()), .kept (.ok ()), .kept (.ok ()),
          .found (.ok (some ⟨#[3]⟩)), .found (.ok (some ⟨#[2]⟩))] := by
  have hfresh : Fresh bare ⟨["cache"]⟩ := fresh_bare (by decide) (by decide)
  refine ⟨isTree_bare, hfresh, fit_visits, ?_⟩
  exact ((puts_are_atomic_and_replies_as_in_memory ⟨["cache"]⟩).2.2.1 bare visits isTree_bare hfresh
    fit_visits).trans rfl

/-- So many segments of full length make a key that fits within the limit for paths. -/
def longSegments : List Name.Segment :=
  List.replicate 16 (List.replicate FileSystem.nameLimit 'k')

/-- A key that leaves no room for the path of the root. -/
def longKey : String :=
  Name.ofSegments longSegments

theorem length_joinSegments_replicate (s : Name.Segment) (n : Nat) :
    (Name.joinSegments (List.replicate (n + 1) s)).length + 1 = (n + 1) * (s.length + 1) := by
  induction n with
  | zero => simp [Name.joinSegments]
  | succ n ih =>
    rw [List.replicate_succ, Name.joinSegments, List.intercalate_cons_of_ne_nil (by simp)]
    rw [Name.joinSegments] at ih
    simp only [List.length_append, List.length_cons, List.length_nil]
    rw [Nat.succ_mul]
    omega

theorem mem_joinSegments {ss : List Name.Segment} {c : Char} (h : c ∈ Name.joinSegments ss) :
    c = '/' ∨ ∃ s ∈ ss, c ∈ s := by
  induction ss with
  | nil => simp [Name.joinSegments] at h
  | cons s ss ih =>
    by_cases hnil : ss = []
    · subst hnil
      exact Or.inr ⟨s, by simp, by simpa [Name.joinSegments] using h⟩
    · rw [Name.joinSegments, List.intercalate_cons_of_ne_nil hnil, List.mem_append,
        List.mem_append] at h
      rcases h with (hs | hslash) | hrest
      · exact Or.inr ⟨s, by simp, hs⟩
      · exact Or.inl (by simpa using hslash)
      · refine (ih hrest).imp_right ?_
        rintro ⟨t, ht, hc⟩
        exact ⟨t, List.mem_cons_of_mem s ht, hc⟩

theorem mem_longKey {c : Char} (h : c ∈ longKey.toList) : c = '/' ∨ c = 'k' := by
  rw [longKey, Name.ofSegments, String.toList_ofList] at h
  rcases mem_joinSegments h with hslash | ⟨s, hs, hc⟩
  · exact Or.inl hslash
  · rw [List.eq_of_mem_replicate hs] at hc
    exact Or.inr (List.eq_of_mem_replicate hc)

theorem utf8ByteSize_longKey : longKey.utf8ByteSize = 4095 := by
  have hone : ∀ c ∈ longKey.toList, c.utf8Size = 1 := fun c hc => by
    rcases mem_longKey hc with rfl | rfl
    · rfl
    · rfl
  have hlength : (Name.joinSegments longSegments).length + 1 = 16 * (FileSystem.nameLimit + 1) := by
    rw [longSegments, length_joinSegments_replicate _ 15, List.length_replicate]
  rw [← String.ofList_toList (s := longKey), String.utf8ByteSize_ofList,
    FileSystem.utf8Len_eq_length hone, longKey, Name.ofSegments, String.toList_ofList]
  have hlimit : FileSystem.nameLimit = 255 := rfl
  omega

theorem tidyKey_longKey : TidyKey longKey := by
  have hdown : ∀ s ∈ longSegments, Name.Down s := fun s hs => by
    rw [List.eq_of_mem_replicate hs]
    exact ⟨by simp, by decide, by decide, by decide⟩
  refine ⟨Name.plain_ofSegments (by decide) hdown, fun part hpart => ?_⟩
  rw [Path.parts_ofText, longKey, Name.ofSegments, String.toList_ofList,
    Name.segments_joinSegments (by decide) fun s hs => (hdown s hs).slash] at hpart
  obtain ⟨s, hs, rfl⟩ := List.mem_map.mp hpart
  rw [List.eq_of_mem_replicate hs, String.utf8ByteSize_ofList, FileSystem.utf8Len_eq_length,
    List.length_replicate]
  intro c hc
  rw [List.eq_of_mem_replicate hc]
  rfl

theorem longKey_is_not_answered_as_in_memory :
    bare.IsTree ∧ Fresh bare ⟨["cache"]⟩ ∧ TidyKey longKey ∧ '\x00' ∉ longKey.toList ∧
      longKey.utf8ByteSize < FileSystem.pathLimit ∧
      (store ⟨["cache"]⟩).replies bare [.get longKey] =
        [.found (.error (.unreadable longKey "File name too long (os error 36)"))] ∧
      MemoryStore.store.replies MemoryStore.empty [.get longKey] = [.found (.ok none)] := by
  refine ⟨isTree_bare, fresh_bare (by decide) (by decide), tidyKey_longKey, fun h => ?_, ?_, ?_,
    rfl⟩
  · rcases mem_longKey h with h | h
    · simp at h
    · simp at h
  · rw [utf8ByteSize_longKey]
    decide
  · have htext : (keyPath ⟨["cache"]⟩ longKey).text = "cache" ++ "/" ++ longKey :=
      text_keyPath tidyKey_longKey (by decide)
    have hget : (store ⟨["cache"]⟩).get bare longKey =
        .error (.unreadable longKey FileError.nameTooLong.message) := by
      refine get_of_long (fun h => ?_) ?_
      · rw [htext, String.toList_append, List.mem_append] at h
        rcases h with h | h
        · revert h
          decide
        · rcases mem_longKey h with h | h
          · simp at h
          · simp at h
      · rw [htext, String.utf8ByteSize_append, utf8ByteSize_longKey]
        decide
    rw [Store.replies, Store.replies, Store.reply, hget]
    rfl

end DirectoryStore
end Schemata
