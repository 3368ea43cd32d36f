import Schemata.Command.Sources
import Schemata.Proofs.Registry.Ranking
import Schemata.Proofs.Registry.Reachable
import Schemata.Proofs.Store.Names

/-!
# Building from directories comes to an end

Normal names of files are finitely many, so without a cache every schema is built, or fails, within
the levels for the file system.  With a cache this takes that no cached text leads back to itself.
The cache may lie among the documents: then a document that is overwritten, or that comes up, during
a build is a text of the build, and its references lead to lower ranks like those of every other.
-/

namespace Schemata.Command

open Build (Ends)
open DirectoryStore (exists_names keyPath)
open FileSystem (pathLimit)
open Json (Value)

variable {s : Settings} {fs made : FileSystem} {name other text : String} {bytes : ByteArray}
  {rank : String → Nat} {names : List String} {l : Location}

/-! ## The registry on directories -/

theorem documents_registryOf : (registryOf s).documents fs name =
    (DirectoryStore.store (.ofText s.schemaDirectory)).get fs name := by
  unfold registryOf
  cases s.cacheDirectory with
  | none => rfl
  | some directory => rfl

theorem exists_directory_of_cache {cache : Store FileSystem}
    (h : (registryOf s).cache = some cache) :
    ∃ directory, s.cacheDirectory = some directory ∧
      cache = DirectoryStore.store (.ofText directory) := by
  unfold registryOf at h
  cases hdirectory : s.cacheDirectory with
  | none => simp [hdirectory, Registry.ofDocuments] at h
  | some directory =>
    rw [hdirectory] at h
    exact ⟨directory, rfl, (Option.some.inj h).symm⟩

theorem read_of_get {root : Path} {key : String}
    (h : (DirectoryStore.store root).get fs key = .ok (some bytes)) :
    fs.read (keyPath root key) = .ok bytes := by
  simp only [DirectoryStore.store] at h
  split at h
  · case h_1 content hread => rw [hread, Option.some.inj (Except.ok.inj h)]
  · simp at h
  · simp at h

theorem read_of_documents (h : (registryOf s).documents fs name = .ok (some bytes)) :
    fs.read (documentPath s name) = .ok bytes :=
  read_of_get (documents_registryOf ▸ h)

/-! ## Where the texts in files lead -/

/-- The place of a document. -/
def documentPlace (s : Settings) (fs : FileSystem) (name : String) : Location :=
  fs.place (documentPath s name)

/-- The place of a cached schema, if there is a cache. -/
def cachePlace? (s : Settings) (fs : FileSystem) (name : String) : Option Location :=
  (cachePath? s name).map fs.place

/-- The file at the location holds the text. -/
def Holds (fs : FileSystem) (l : Location) (text : String) : Prop :=
  ∃ bytes, fs.file? l = some bytes ∧ Utf8.decode bytes = .ok text

/-- The text is cached for the name. -/
def Caches (s : Settings) (fs : FileSystem) (name text : String) : Prop :=
  ∃ l, cachePlace? s fs name = some l ∧ Holds fs l text

/-- There is a document of the name, or there may be one as soon as a schema is cached. -/
def Source (s : Settings) (fs : FileSystem) (name : String) : Prop :=
  (∃ text, Holds fs (documentPlace s fs name) text) ∨
    ∃ other, cachePlace? s fs other = some (documentPlace s fs name)

/-- A reference of the text stands for the name in the directory of the source. -/
def RefersFrom (s : Settings) (source text other : String) : Prop :=
  ∃ members reference, Value.read text = .ok (.object members) ∧
    Node.Mentions members reference ∧
      other = (registryOf s).target (Name.directory source) reference

/-- A reference of the text stands for the name, if it is read where some document is. -/
def TextRefers (s : Settings) (fs : FileSystem) (text other : String) : Prop :=
  ∃ source, Source s fs source ∧ RefersFrom s source text other

/-- The document of the one name or its cached text refers to the other name, or the one name has
the place of its document or of its cached text where the other has that of its cached text. -/
def Leads (s : Settings) (fs : FileSystem) (name other : String) : Prop :=
  (∃ text, Holds fs (documentPlace s fs name) text ∧ RefersFrom s name text other) ∨
    (∃ text, Caches s fs name text ∧ TextRefers s fs text other) ∨
      cachePlace? s fs other = some (documentPlace s fs name) ∨
        cachePlace? s fs name = cachePlace? s fs other

/-- Some cached text leads back to its own name. -/
def LeadsBack (s : Settings) (fs : FileSystem) : Prop :=
  ∃ name text other, Caches s fs name text ∧ TextRefers s fs text other ∧
    Relation.ReflTransGen (Leads s fs) other name

/-- If no cached text leads back to itself, there is a ranking. -/
theorem exists_ranking (hnone : ¬ LeadsBack s fs) :
    ∃ rank : String → Nat, (∀ {name other}, Leads s fs name other → rank other ≤ rank name) ∧
      (∀ {name text other}, Caches s fs name text → TextRefers s fs text other →
        rank other < rank name) ∧ ∀ name, rank name ≤ fs.files.length := by
  obtain ⟨rank, hleads, hdrops, hrank⟩ := Registry.exists_rank (Leads s fs)
    (fun name other => ∃ text, Caches s fs name text ∧ TextRefers s fs text other)
    (cachePlace? s fs) (fs.files.map fun file => some file.1)
    (fun hdrops => by
      obtain ⟨text, ⟨l, hl, bytes, hfile, hdecode⟩, hrefers⟩ := hdrops
      refine ⟨Or.inr (Or.inl ⟨text, ⟨l, hl, bytes, hfile, hdecode⟩, hrefers⟩), ?_⟩
      exact List.mem_map.mpr ⟨(l, bytes), FileSystem.mem_files hfile, hl.symm⟩)
    (fun hkey => Or.inr (Or.inr (Or.inr hkey)))
    (fun ⟨text, hcaches, hrefers⟩ hpath => hnone ⟨_, text, _, hcaches, hrefers, hpath⟩)
  exact ⟨rank, hleads, fun hcaches hrefers => hdrops ⟨_, hcaches, hrefers⟩,
    fun name => (hrank name).trans (by rw [List.length_map])⟩

/-! ## What a build may change -/

/-- The references of the text lead to names below the rank, wherever it is read. -/
def TextBelow (s : Settings) (fs : FileSystem) (rank : String → Nat) (bound : Nat)
    (text : String) : Prop :=
  (registryOf s).TextBelow (Source s fs) rank bound text

/-- Directories have been added, and files with texts below the ranks of the names that they are
cached for. -/
structure Keeps (s : Settings) (rank : String → Nat) (fs made : FileSystem) : Prop where
  current : made.current = fs.current
  file? : ∀ l bytes, made.file? l = some bytes → fs.file? l = some bytes ∨
    ∃ name text, cachePlace? s fs name = some l ∧ Utf8.decode bytes = .ok text ∧
      TextBelow s fs rank (rank name) text

theorem Keeps.refl (s : Settings) (rank : String → Nat) (fs : FileSystem) : Keeps s rank fs fs :=
  ⟨rfl, fun _ _ h => Or.inl h⟩

theorem Keeps.place (h : Keeps s rank fs made) (p : Path) : made.place p = fs.place p :=
  FileSystem.place_congr h.current

theorem Keeps.documentPlace (h : Keeps s rank fs made) :
    documentPlace s made name = documentPlace s fs name :=
  h.place _

theorem Keeps.put {directory : String} (h : Keeps s rank fs made)
    (hdirectory : s.cacheDirectory = some directory)
    (htext : TextBelow s fs rank (rank name) text) :
    Keeps s rank fs
      ((DirectoryStore.store (.ofText directory)).put made (cacheKey name) text.toUTF8).2 := by
  obtain ⟨answer, after, hput⟩ : ∃ answer after, (DirectoryStore.store (.ofText directory)).put made
      (cacheKey name) text.toUTF8 = (answer, after) := ⟨_, _, rfl⟩
  rw [hput]
  cases answer with
  | error fault =>
    have hadds := DirectoryStore.addsDirectories_of_put hput
    refine ⟨hadds.current.trans h.current, fun l bytes hfile => ?_⟩
    exact h.file? l bytes (hadds.file? l ▸ hfile)
  | ok =>
    have hcurrent := DirectoryStore.current_of_put hput
    obtain ⟨place, hlocate, hstored, hothers⟩ := DirectoryStore.exists_location_of_put hput
    refine ⟨hcurrent.trans h.current, fun l bytes hfile => ?_⟩
    by_cases hl : l = place
    · subst hl
      obtain rfl := Option.some.inj (hfile.symm.trans hstored)
      refine Or.inr ⟨name, text, ?_, Utf8.decode_toUTF8 text, htext⟩
      rw [FileSystem.place_of_locate hlocate, cachePlace?, cachePath?, hdirectory]
      exact congrArg some ((h.place _).symm.trans (FileSystem.place_congr hcurrent.symm))
    · exact h.file? l bytes (hothers l hl ▸ hfile)

/-- Documents and cached texts keep to a ranking while schemas are built and cached. -/
theorem ranked_registryOf (hleads : ∀ {name other}, Leads s fs name other → rank other ≤ rank name)
    (hdrops : ∀ {name text other}, Caches s fs name text → TextRefers s fs text other →
      rank other < rank name)
    (hnames : ∀ name bytes, Name.normalize name = name →
      FileSystem.checkPath (documentPath s name) = .ok () →
        fs.file? (documentPlace s fs name) = some bytes → name ∈ names) :
    (registryOf s).Ranked (Keeps s rank fs) (Source s fs) rank names where
  document := by
    intro made hmade name document hnormal hdocument
    obtain ⟨bytes, -, hbytes, -⟩ := Registry.exists_parse_of_document? hdocument
    obtain ⟨text, hdecode, hread⟩ := (Registry.document?_eq_some_of_bytes hbytes).mp hdocument
    have hread' := read_of_documents hbytes
    have hfile : made.file? (documentPlace s fs name) = some bytes :=
      hmade.documentPlace ▸ FileSystem.file?_of_read hread'
    rcases hmade.file? _ _ hfile with hold | ⟨other, text', hplace, hdecode', hbelow⟩
    · refine ⟨Or.inl ⟨text, bytes, hold, hdecode⟩, fun reference hmentions => Or.inr ⟨?_, ?_⟩⟩
      · exact hnames name bytes hnormal (FileSystem.checkPath_of_read hread') hold
      · have hrefers : RefersFrom s name text
            ((registryOf s).target (Name.directory name) reference) :=
          ⟨document, reference, hread, hmentions, rfl⟩
        exact hleads (Or.inl ⟨text, ⟨bytes, hold, hdecode⟩, hrefers⟩)
    · obtain rfl : text' = text := Except.ok.inj (hdecode'.symm.trans hdecode)
      have hsource : Source s fs name := Or.inr ⟨other, hplace⟩
      refine ⟨hsource, fun reference hmentions => Or.inl ?_⟩
      exact Nat.lt_of_lt_of_le (hbelow document hread reference hmentions name hsource)
        (hleads (Or.inr (Or.inr (Or.inl hplace))))
  hit := by
    intro made hmade cache hcache name bytes text hbytes hdecode
    obtain ⟨directory, hdirectory, rfl⟩ := exists_directory_of_cache hcache
    have hplace : cachePlace? s fs name =
        some (fs.place (keyPath (.ofText directory) (cacheKey name))) := by
      rw [cachePlace?, cachePath?, hdirectory]
      rfl
    have hfile := hmade.place _ ▸ FileSystem.file?_of_read (read_of_get hbytes)
    rcases hmade.file? _ _ hfile with hold | ⟨other, text', hother, hdecode', hbelow⟩
    · intro members hread reference hmentions source hsource
      exact hdrops ⟨_, hplace, bytes, hold, hdecode⟩
        ⟨source, hsource, members, reference, hread, hmentions, rfl⟩
    · obtain rfl : text' = text := Except.ok.inj (hdecode'.symm.trans hdecode)
      exact hbelow.mono (hleads (Or.inr (Or.inr (Or.inr (hplace.trans hother.symm)))))
  put := by
    intro made hmade cache hcache name text htext
    obtain ⟨directory, hdirectory, rfl⟩ := exists_directory_of_cache hcache
    exact hmade.put hdirectory htext

/-- If there is no cache in use, or no cached text leads back to itself, every name is answered, and
the levels for the file system are enough. -/
theorem ends_getSchema (h : (registryOf s).usesCache = true → ¬ LeadsBack s fs) (name : String) :
    ∃ result made, Ends ((registryOf s).getSchema (levelsFor fs) name) fs result made := by
  obtain ⟨names, hlength, hnames⟩ := exists_names fs (.ofText s.schemaDirectory)
  cases hcached : (registryOf s).usesCache with
  | true =>
    obtain ⟨rank, hleads, hdrops, hrank⟩ := exists_ranking (h hcached)
    have hranked : (registryOf s).Ranked (Keeps s rank fs) (Source s fs) rank names :=
      ranked_registryOf hleads hdrops hnames
    obtain ⟨result, made, hends⟩ :=
      hranked.exists_ends (Keeps.refl s rank fs) hcached hlength hrank name
    exact ⟨result, made, hends _ (Nat.le_refl _)⟩
  | false =>
    have hreachable : ∀ other bytes,
        Relation.ReflTransGen ((registryOf s).Refers fs) (Name.normalize name) other →
          (registryOf s).documents fs other = .ok (some bytes) → other ∈ names := by
      intro other bytes hpath hbytes
      have hread := read_of_documents hbytes
      have hnormal : Name.normalize other = other := by
        rcases Relation.ReflTransGen.cases_tail hpath with rfl | ⟨last, -, hrefers⟩
        · exact Name.normalize_normalize name
        · exact hrefers.normal
      exact hnames other bytes hnormal (FileSystem.checkPath_of_read hread)
        (FileSystem.file?_of_read hread)
    obtain ⟨result, hends⟩ := Registry.exists_ends_of_reachable hreachable
    refine ⟨result, fs, ?_⟩
    rw [Registry.getSchema, hcached]
    exact hends _ (Nat.mul_le_mul_left _ (by omega))

end Schemata.Command
