import Schemata.Proofs.Registry.Termination

/-!
# Documents built inline

The text of a stored document can be built under its name, or inline for the directory of the name.
An inline build starts with an empty chain: it does not know the name of its document, and may
fetch that document as an ancestor of itself.  If it does, the name reaches itself, and then no
fetch on the way has a text.  So the two builds have the same texts.
-/

namespace Schemata
namespace Registry

open Build (Ends Finishes)
open Json (Members Value depthLimit)

variable {σ : Type} {r : Registry σ} {s t u : σ} {levels : Nat} {chain chain' names : List String}
  {name directory raw text : String} {document : Members} {result : Except SchemaError String}

/-! ## The raw text -/

theorem ends_getRawSchema_ok :
    Ends (r.getRawSchema name) s (.ok raw) t ↔
      ∃ document, r.loaded s (Name.normalize name) = .ok (raw, document) ∧ t = s := by
  unfold getRawSchema
  rw [Build.ends_bind_ok]
  simp only [ends_loadDocument, Build.ends_pure, Except.ok.injEq]
  constructor
  · rintro ⟨p, u, ⟨hloaded, rfl⟩, rfl, rfl⟩
    exact ⟨p.2, hloaded.symm, rfl⟩
  · rintro ⟨document, hloaded, rfl⟩
    exact ⟨(raw, document), t, ⟨hloaded.symm, rfl⟩, rfl, rfl⟩

/-- The raw text of a name holds its document, whatever name it is parsed under. -/
theorem exists_document_of_getRawSchema (h : Ends (r.getRawSchema name) s (.ok raw) t) :
    ∃ document, r.document? s (Name.normalize name) = some document ∧
      ∀ other, parseDocument other raw = .ok document := by
  obtain ⟨document, hloaded, -⟩ := ends_getRawSchema_ok.mp h
  obtain ⟨-, -, hparse⟩ := exists_parse_of_loaded hloaded
  refine ⟨document, document?_eq_some.mpr ⟨raw, hloaded⟩, ?_⟩
  intro other
  exact parseDocument_eq_ok.mpr (parseDocument_eq_ok.mp hparse)

/-! ## The same document under two chains -/

/-- A document is built alike under a chain that its references neither are in nor lead to. -/
theorem eventually_ends_buildDocument (hu : Value.Unique (.object document))
    (h : Ends (buildDocument (r.parent (r.fetch false levels) chain directory) levels document) s
      (.ok text) t)
    (hfresh : ∀ reference, Node.Mentions document reference → ∀ other ∈ chain',
      r.target directory reference ≠ other ∧ ¬ r.Reaches s (r.target directory reference) other) :
    Eventually fun i =>
      Ends (buildDocument (r.parent (r.fetch false i) chain' directory) i document) s (.ok text)
        s := by
  have hfollow : (Simulation.following (.still s) (fun _ => True) s).Relates BuiltText
      (buildDocument (r.parent (r.fetch false levels) chain directory) levels document)
      fun i => buildDocument (r.parent (r.fetch false i) chain' directory) i document := by
    apply following_buildDocument hu
    intro reference hmentions
    have hother := hfresh reference hmentions
    refine following_parent rfl (fun _ _ => id) (fun _ => Or.inl trivial)
      (fun _ hmem => (hother _ hmem).1 rfl) fun _ => ?_
    intro u hu result v hends
    obtain rfl : u = s := hu
    obtain ⟨rfl, hbuilt⟩ := reads_fetch levels chain _ _ _ hends
    refine ⟨rfl, trivial, ?_, fun _ _ => Or.inl trivial⟩
    rintro parentText rfl
    have hanswers : r.Answers v chain _ (.ok parentText) := answers_of_ends ⟨rfl, rfl⟩ hends
    exact ⟨hbuilt parentText rfl, hanswers.ok_of_chain normalize_target fun other hmem =>
      (hother other hmem).2⟩
  exact ((hfollow s rfl _ _ h).2.2.1 text rfl).2

/-- What an inline document with a text refers to does not lead back to where the references
start. -/
theorem not_reaches_of_inline
    (hdocument : r.document? s (Name.normalize name) = some document)
    (h : Ends (buildDocument (r.parent (r.fetch false levels) [] (Name.directory name)) levels
      document) s (.ok text) t) {reference : String} (hmentions : Node.Mentions document reference) :
    r.target (Name.directory name) reference ≠ Name.normalize name ∧
      ¬ r.Reaches s (r.target (Name.directory name) reference) (Name.normalize name) := by
  have hrefers : r.Refers s (Name.normalize name) (r.target (Name.directory name) reference) :=
    ⟨document, hdocument, reference, hmentions, by rw [Name.directory_normalize]⟩
  obtain ⟨built, hbuilt, -⟩ := Build.ends_map_ok.mp h
  obtain ⟨members, hparent⟩ := Building.exists_answer_of_ok (unique_of_document? hdocument)
    (fun _ => reads_parent (reads_fetch levels [] _)) hbuilt hmentions
  obtain ⟨-, parentText, htext, -⟩ := ends_parent_ok.mp hparent
  have hanswers : r.Answers s [] (r.target (Name.directory name) reference) (.ok parentText) :=
    answers_of_ends ⟨rfl, rfl⟩ htext
  have hacyclic := hanswers.acyclic normalize_target .refl
  constructor
  · intro hself
    rw [hself] at hrefers hacyclic
    exact hacyclic (.single hrefers)
  · exact fun hreach => hacyclic (hreach.tail hrefers)

/-! ## Agreement -/

/-- A text under the name of a document is one of the inline document too. -/
theorem eventually_ends_buildText (huncached : r.usesCache = false)
    (hraw : Ends (r.getRawSchema name) s (.ok raw) u)
    (h : Ends (r.getSchemaUncached levels name) s (.ok text) t) :
    Eventually fun i => Ends (r.buildText i raw (Name.directory name)) s (.ok text) s := by
  obtain ⟨document, hdocument, hparse⟩ := exists_document_of_getRawSchema hraw
  cases levels with
  | zero => exact absurd h Build.not_ends_unfinished
  | succ levels =>
    rcases ends_fetch_uncached.mp h with ⟨e, -, he, -⟩ | ⟨found, hfound, hbuild⟩
    · simp at he
    · obtain rfl : document = found := Option.some.inj (hdocument.symm.trans hfound)
      rw [parents, Name.directory_normalize] at hbuild
      have hinline : Eventually fun i => Ends (buildDocument (r.parent (r.fetch false i) []
          (Name.directory name)) i document) s (.ok text) s :=
        eventually_ends_buildDocument (unique_of_document? hdocument) hbuild (by simp)
      refine hinline.imp fun i hi => ?_
      refine ends_buildText.mpr (Or.inr ⟨document, hparse inlineName, ?_⟩)
      rw [huncached]
      exact hi

/-- A text of an inline document is one under its name too. -/
theorem answers_of_buildText (huncached : r.usesCache = false)
    (hraw : Ends (r.getRawSchema name) s (.ok raw) u)
    (h : Ends (r.buildText levels raw (Name.directory name)) s (.ok text) t) :
    r.Answers s [] name (.ok text) := by
  obtain ⟨document, hdocument, hparse⟩ := exists_document_of_getRawSchema hraw
  rcases ends_buildText.mp h with ⟨e, -, he, -⟩ | ⟨found, hfound, hbuild⟩
  · simp at he
  · obtain rfl : document = found := Except.ok.inj ((hparse inlineName).symm.trans hfound)
    rw [huncached] at hbuild
    refine answers_of_document hdocument ?_
    simp only [parents, Name.directory_normalize]
    refine eventually_ends_buildDocument (unique_of_document? hdocument) hbuild ?_
    intro reference hmentions other hother
    obtain rfl : other = Name.normalize name := List.mem_singleton.mp hother
    exact not_reaches_of_inline hdocument hbuild hmentions

theorem finishes_buildText (hnames : r.StoredAmong s names) (huncached : r.usesCache = false)
    (hlevels : depthLimit + levelsFor names.length 0 ≤ levels) (text directory : String) :
    Finishes s (fun _ => True) (r.buildText levels text directory) := by
  have hparse : Finishes s (fun members => parseDocument inlineName text = .ok members)
      (Build.ofExcept (parseDocument inlineName text)) := .ofExcept fun _ => id
  refine hparse.bind fun members hmembers => ?_
  have hnesting := nesting_le_of_parseDocument hmembers
  exact (finishes_buildTree hnames huncached (unique_of_parseDocument hmembers) (by omega)
    directory).bind fun _ _ => .pure trivial

/-- Without a cache, a stored document has a text under its name exactly if it has one inline, and
it is the same text.  Over finitely many documents both builds end. -/
theorem named_iff_inline (huncached : r.usesCache = false)
    (hraw : Ends (r.getRawSchema name) s (.ok raw) t) :
    (∀ text, (∃ levels t, Ends (r.getSchemaUncached levels name) s (.ok text) t) ↔
        ∃ levels t, Ends (r.buildText levels raw (Name.directory name)) s (.ok text) t) ∧
    ∀ names, r.StoredAmong s names → ∃ named inline,
      (∀ levels, levelsFor names.length 0 ≤ levels →
        Ends (r.getSchemaUncached levels name) s named s) ∧
      (∀ levels, depthLimit + levelsFor names.length 0 ≤ levels →
        Ends (r.buildText levels raw (Name.directory name)) s inline s) ∧
      ∀ text, named = .ok text ↔ inline = .ok text := by
  have htexts : ∀ text, (∃ levels t, Ends (r.getSchemaUncached levels name) s (.ok text) t) ↔
      ∃ levels t, Ends (r.buildText levels raw (Name.directory name)) s (.ok text) t := by
    intro text
    constructor
    · rintro ⟨levels, t, h⟩
      obtain ⟨more, hends⟩ := (eventually_ends_buildText huncached hraw h).exists
      exact ⟨more, s, hends⟩
    · rintro ⟨levels, t, h⟩
      obtain ⟨more, hends⟩ := (answers_of_buildText huncached hraw h).exists
      exact ⟨more, s, hends⟩
  refine ⟨htexts, fun names hnames => ?_⟩
  obtain ⟨named, hnamed, -⟩ := finishes_getSchemaUncached hnames (Nat.le_refl _) name
  obtain ⟨inline, hinline, -⟩ :=
    finishes_buildText hnames huncached (Nat.le_refl _) raw (Name.directory name)
  refine ⟨named, inline, ?_, ?_, ?_⟩
  · intro levels hlevels
    exact approximates_fetch hlevels _ _ _ _ _ hnamed
  · intro levels hlevels
    exact approximates_buildText hlevels _ _ _ _ _ hinline
  · intro text
    constructor
    · rintro rfl
      obtain ⟨more, u, hends⟩ := (htexts text).mp ⟨_, s, hnamed⟩
      exact (hinline.unique_of_monotone (approximates_buildText · _ _) hends).1
    · rintro rfl
      obtain ⟨more, u, hends⟩ := (htexts text).mpr ⟨_, s, hinline⟩
      exact (hnamed.unique_of_monotone (approximates_fetch · _ _) hends).1

/-- A document in a directory, which extends its neighbour. -/
def neighbours : Registry Unit :=
  .ofTexts [("d/a", "\x7b\"extends\":\"b\"\x7d"), ("d/b", "\x7b\"type\":\"string\"\x7d")]

theorem ends_neighbours_raw :
    Ends (neighbours.getRawSchema "d/./a") () (.ok "\x7b\"extends\":\"b\"\x7d") () := by
  unfold Ends
  decide +kernel

theorem ends_neighbours :
    Ends (neighbours.getSchemaUncached 4 "d/./a") () (.ok "\x7b\"type\":\"string\"\x7d") () := by
  unfold Ends
  decide +kernel

theorem neighbour_is_built_inline :
    neighbours.usesCache = false ∧
      Ends (neighbours.getRawSchema "d/./a") () (.ok "\x7b\"extends\":\"b\"\x7d") () ∧
      Ends (neighbours.getSchemaUncached 4 "d/./a") () (.ok "\x7b\"type\":\"string\"\x7d") () ∧
      neighbours.StoredAmong () ["d/a", "d/b"] ∧
      (∃ levels t, Ends (neighbours.buildText levels "\x7b\"extends\":\"b\"\x7d"
        (Name.directory "d/./a")) () (.ok "\x7b\"type\":\"string\"\x7d") t) ∧
      ∃ inline, ∀ levels, depthLimit + levelsFor 2 0 ≤ levels →
        Ends (neighbours.buildText levels "\x7b\"extends\":\"b\"\x7d" (Name.directory "d/./a")) ()
          inline () := by
  have hnames : neighbours.StoredAmong () ["d/a", "d/b"] := storedAmong_ofTexts
  obtain ⟨htexts, hfinite⟩ := named_iff_inline rfl ends_neighbours_raw
  obtain ⟨named, inline, -, hinline, -⟩ := hfinite _ hnames
  exact ⟨rfl, ends_neighbours_raw, ends_neighbours, hnames,
    (htexts _).mp ⟨4, (), ends_neighbours⟩, inline, hinline⟩

end Registry
end Schemata
