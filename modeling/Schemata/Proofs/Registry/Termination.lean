import Mathlib.Data.List.Chain
import Mathlib.Data.List.Nodup
import Schemata.Proofs.Building.Termination
import Schemata.Proofs.Registry.Answer

/-!
# Termination and cycles

Over finitely many stored documents every name has an answer: a fetch adds its name to the chain,
a name of the chain is not fetched again, and each single build ends.  The number of levels that
the registry is given for so many documents is enough.

A reported cycle is a path of references from the name, which meets itself at its end for the
first time.
-/

namespace Schemata
namespace Registry

open Build (Ends Finishes Reads)
open Json (Members Value depthLimit)

variable {σ : Type} {r : Registry σ} {s : σ}

/-- The stored documents are among these names. -/
def StoredAmong (r : Registry σ) (s : σ) (names : List String) : Prop :=
  ∀ name bytes, r.documents s name = .ok (some bytes) → name ∈ names

theorem storedAmong_ofTexts {texts : List (String × String)} :
    (ofTexts texts).StoredAmong () (texts.map Prod.fst) := by
  intro name bytes h
  cases hfind : texts.lookup name with
  | none => simp [ofTexts, ofDocuments, lookupText, hfind] at h
  | some text =>
    obtain ⟨before, after, rfl, -⟩ := List.lookup_eq_some_iff.mp hfind
    simp

/-- How many of the names are not under construction. -/
def fresh (names chain : List String) : Nat :=
  (names.filter (· ∉ chain)).length

theorem fresh_append_lt {names chain : List String} {name : String} (hname : name ∈ names)
    (hchain : name ∉ chain) : fresh names (chain ++ [name]) < fresh names chain := by
  have hfilter : names.filter (· ∉ chain ++ [name]) =
      (names.filter (· ∉ chain)).filter (· ≠ name) := by
    rw [List.filter_filter]
    refine List.filter_congr fun other _ => ?_
    simp [and_comm]
  rw [fresh, fresh, hfilter, List.length_filter_lt_length_iff_exists]
  exact ⟨name, List.mem_filter.mpr ⟨hname, by simpa using hchain⟩, by simp⟩

theorem exists_mem_of_document? {names : List String} (hnames : r.StoredAmong s names)
    {name : String} {document : Members} (h : r.document? s name = some document) :
    name ∈ names := by
  obtain ⟨bytes, -, hbytes, -⟩ := exists_parse_of_document? h
  exact hnames name bytes hbytes

/-! ## Termination -/

theorem finishes_parent {fetch : List String → String → Build σ String} {chain : List String}
    {directory reference : String}
    (hreads : Reads s BuiltText (fetch chain (r.target directory reference)))
    (hfetch : r.target directory reference ∉ chain →
      Finishes s (fun _ => True) (fetch chain (r.target directory reference))) :
    Finishes s (fun members => Resolved members ∧ Node.LowerThan depthLimit members)
      (r.parent fetch chain directory reference) := by
  by_cases hmem : r.target directory reference ∈ chain
  · exact ⟨_, ends_parent.mpr (Or.inl ⟨hmem, rfl, rfl⟩), by simp⟩
  · obtain ⟨result, hends, -⟩ := hfetch hmem
    refine ⟨_, ends_parent_of_fetch hmem hends, fun members hmembers => ?_⟩
    cases result with
    | error e => simp [parentOutcome] at hmembers
    | ok text =>
      have hparse := mapError_eq_ok.mp hmembers
      exact ⟨((hreads _ _ hends).2 text rfl).resolved hparse,
        Node.lowerThan_of_nesting (nesting_le_of_parseDocument hparse)⟩

/-- A document is built with the levels that it takes itself and those of an inherited tree. -/
theorem finishes_buildDocument {parent : String → Build σ Members} {height levels : Nat}
    {document : Members} (hu : Value.Unique (.object document))
    (hnesting : Value.nesting (.object document) ≤ height) (hlevels : height + height ≤ levels)
    (hparent : ∀ reference, Finishes s
      (fun members => Resolved members ∧ Node.LowerThan height members) (parent reference)) :
    Finishes s (fun _ => True) (buildDocument parent levels document) := by
  have hlow : Node.LowerThan height document := Node.lowerThan_of_nesting hnesting
  obtain ⟨result, hends, -⟩ : Finishes s (fun built => Value.Unique (.object built))
      (Building.buildNode parent levels [] document) :=
    Building.finishes_of_grown hu hlow.grown hlevels fun reference _ => hparent reference
  cases result with
  | ok built => exact ⟨_, Build.ends_map.mpr (Or.inl ⟨built, hends, rfl⟩), by simp⟩
  | error e => exact ⟨_, Build.ends_map.mpr (Or.inr ⟨e, hends, rfl⟩), by simp⟩

/-- Each name that is not under construction takes one level, and the last build takes what a
document and an inherited tree are high. -/
theorem finishes_fetch {names : List String} (hnames : r.StoredAmong s names) {levels : Nat}
    {chain : List String} {name : String} (hchain : Name.normalize name ∉ chain)
    (hlevels : depthLimit + depthLimit + fresh names chain < levels) :
    Finishes s (fun _ => True) (r.fetch false levels chain name) := by
  induction levels generalizing chain name with
  | zero => omega
  | succ levels ih =>
    cases hloaded : r.loaded s (Name.normalize name) with
    | error e => exact ⟨_, ends_fetch_uncached.mpr (Or.inl ⟨e, hloaded, rfl, rfl⟩), by simp⟩
    | ok p =>
      obtain ⟨text, document⟩ := p
      have hdocument : r.document? s (Name.normalize name) = some document :=
        document?_eq_some.mpr ⟨text, hloaded⟩
      have hfresh := fresh_append_lt (exists_mem_of_document? hnames hdocument) hchain
      have hparents : ∀ reference, Finishes s
          (fun members => Resolved members ∧ Node.LowerThan depthLimit members)
          (r.parents levels chain (Name.normalize name) reference) := by
        intro reference
        refine finishes_parent (reads_fetch levels _ _) fun hmem => ih ?_ (by omega)
        rw [normalize_target]
        exact hmem
      have hlevels' : depthLimit + depthLimit ≤ levels := by omega
      obtain ⟨result, hends, -⟩ := finishes_buildDocument (unique_of_document? hdocument)
        (nesting_le_of_document? hdocument) hlevels' hparents
      exact ⟨result, ends_fetch_uncached.mpr (Or.inr ⟨document, hdocument, hends⟩), by simp⟩

theorem fresh_lt_of_levelsFor_le {names : List String} {levels : Nat}
    (h : levelsFor names.length 0 ≤ levels) :
    depthLimit + depthLimit + fresh names [] < levels := by
  have hfresh : fresh names [] ≤ names.length := List.length_filter_le _ _
  unfold levelsFor depthLimit at h
  unfold depthLimit
  omega

theorem finishes_getSchemaUncached {names : List String} (hnames : r.StoredAmong s names)
    {levels : Nat} (hlevels : levelsFor names.length 0 ≤ levels) (name : String) :
    Finishes s (fun _ => True) (r.getSchemaUncached levels name) :=
  finishes_fetch hnames (by simp) (fresh_lt_of_levelsFor_le hlevels)

/-- A tree that is no document takes the levels that it has itself and those of the documents. -/
theorem finishes_buildTree {names : List String} (hnames : r.StoredAmong s names)
    (huncached : r.usesCache = false) {d : Value} (hd : d.Unique) {levels : Nat}
    (hlevels : d.nesting + levelsFor names.length 0 ≤ levels) (directory : String) :
    Finishes s (fun _ => True) (r.buildTree levels directory d) := by
  have hbelow : depthLimit + depthLimit + fresh names [] < levels :=
    fresh_lt_of_levelsFor_le (by omega)
  have hown : d.nesting + depthLimit ≤ levels := by
    unfold levelsFor depthLimit at hlevels
    unfold depthLimit
    omega
  cases d with
  | object node =>
    have hparents : ∀ reference, Finishes s
        (fun members => Resolved members ∧ Node.LowerThan depthLimit members)
        (r.parent (r.fetch r.usesCache levels) [] directory reference) := by
      intro reference
      rw [huncached]
      exact finishes_parent (reads_fetch levels _ _) fun _ =>
        finishes_fetch hnames (by simp) hbelow
    have hgrown : Node.Grown depthLimit (Value.nesting (.object node)) node :=
      (Node.lowerThan_of_nesting (Nat.le_refl _)).grown
    exact (Building.finishes_of_grown hd hgrown hown fun reference _ =>
      hparents reference).bind fun _ _ => .pure trivial
  | _ => exact .throw

/-! ## Cycles -/

variable (r s) in
/-- A path of references from a name that meets itself at its end for the first time. -/
structure IsCycleFrom (name : String) (cycle : List String) : Prop where
  starts : cycle.head? = some name
  linked : cycle.IsChain (r.Refers s)
  distinct : cycle.dropLast.Nodup
  closes : ∃ last, cycle.getLast? = some last ∧ last ∈ cycle.dropLast

theorem loaded_ne_cyclic {name : String} {cycle : List String} :
    r.loaded s name ≠ .error (.cyclicExtend cycle) := by
  intro h
  rcases loaded_error_cases h with ⟨source, he⟩ | he | ⟨fault, he⟩ <;> simp at he

theorem through_eq_cyclic {name : String} {e : SchemaError} {cycle : List String}
    (h : e.through name = .cyclicExtend cycle) : e = .cyclicExtend cycle := by
  cases e <;> simp_all [SchemaError.through]

/-- A cycle that is met on the way closes a path which continues the chain. -/
theorem exists_path_of_cyclic {levels : Nat} {chain : List String} {name : String}
    {cycle : List String} {t : σ} (hnormal : Name.normalize name = name)
    (hdistinct : (chain ++ [name]).Nodup)
    (h : Ends (r.fetch false levels chain name) s (.error (.cyclicExtend cycle)) t) :
    ∃ path last, cycle = chain ++ name :: path ++ [last] ∧
      (chain ++ name :: path).Nodup ∧ last ∈ chain ++ name :: path ∧
        (name :: path ++ [last]).IsChain (r.Refers s) := by
  induction levels generalizing chain name t with
  | zero => exact absurd h Build.not_ends_unfinished
  | succ levels ih =>
    have hfails := failsBy_of_ends h
    rw [hnormal] at hfails
    cases hfails with
    | document hloaded => exact absurd hloaded loaded_ne_cyclic
    | node hblames => exact hblames.elim
    | @cycle other hrefers hmem => exact ⟨[], other, rfl, hdistinct, hmem, by simpa using hrefers⟩
    | @parent other _ inner hrefers hmem hparent he =>
      obtain rfl := through_eq_cyclic he.symm
      have hlonger : ((chain ++ [name]) ++ [other]).Nodup := by
        refine List.Nodup.append hdistinct (List.nodup_singleton _) ?_
        simpa [List.disjoint_singleton] using hmem
      obtain ⟨path, last, hcycle, hnodup, hlast, hlinked⟩ := ih hrefers.normal hlonger hparent
      refine ⟨other :: path, last, ?_, ?_, ?_, ?_⟩
      · simpa using hcycle
      · simpa using hnodup
      · simpa using hlast
      · exact List.IsChain.cons_cons hrefers hlinked

/-- A cycle that is reported without a chain is one from the name itself. -/
theorem isCycleFrom_of_cyclic {levels : Nat} {name : String} {cycle : List String} {t : σ}
    (hnormal : Name.normalize name = name)
    (h : Ends (r.fetch false levels [] name) s (.error (.cyclicExtend cycle)) t) :
    r.IsCycleFrom s name cycle := by
  obtain ⟨path, last, rfl, hnodup, hlast, hlinked⟩ :=
    exists_path_of_cyclic hnormal (List.nodup_singleton name) h
  rw [List.nil_append] at hnodup hlast ⊢
  have hdropLast : (name :: path ++ [last]).dropLast = name :: path := List.dropLast_concat
  refine ⟨rfl, hlinked, ?_, last, List.getLast?_concat, ?_⟩
  · rw [hdropLast]
    exact hnodup
  · rw [hdropLast]
    exact hlast

/-! ## Every name has an answer -/

/-- Over finitely many documents every name has an answer.  A text is answered only if all that
the name reaches is stored and free of cycles, and a reported cycle is one. -/
theorem exists_answer_of_storedAmong {names : List String} (hnames : r.StoredAmong s names)
    (name : String) :
    ∃ result, (∀ levels, levelsFor names.length 0 ≤ levels →
        Ends (r.getSchemaUncached levels name) s result s) ∧
      (∀ text, result = .ok text →
        ∀ other, Relation.ReflTransGen (r.Refers s) (Name.normalize name) other →
          (∃ document, r.document? s other = some document) ∧ ¬ r.Reaches s other other) ∧
      ∀ cycle, result = .error (.cyclicExtend cycle) →
        r.IsCycleFrom s (Name.normalize name) cycle := by
  obtain ⟨result, hends, -⟩ := finishes_getSchemaUncached hnames (Nat.le_refl _) name
  have hanswers : r.Answers s [] (Name.normalize name) result :=
    answers_normalize_iff.mpr (answers_of_ends ⟨rfl, rfl⟩ hends)
  refine ⟨result, ?_, ?_, ?_⟩
  · intro levels hlevels
    obtain ⟨result', hends', -⟩ := finishes_getSchemaUncached hnames hlevels name
    exact (answers_of_ends ⟨rfl, rfl⟩ hends).unique (answers_of_ends ⟨rfl, rfl⟩ hends') ▸ hends'
  · rintro text rfl other hreach
    have hnormal := Name.normalize_normalize name
    exact ⟨hanswers.stored hnormal hreach, hanswers.acyclic hnormal hreach⟩
  · rintro cycle rfl
    obtain ⟨levels, hfetch⟩ := hanswers.exists
    exact isCycleFrom_of_cyclic (Name.normalize_normalize name) hfetch

/-- Two documents that extend each other, one of them below its root. -/
def ring : Registry Unit :=
  .ofTexts [("a", "\x7b\"properties\":\x7b\"x\":\x7b\"extends\":\"b\"\x7d\x7d\x7d"),
    ("b", "\x7b\"extends\":[\"./a\"]\x7d")]

theorem storedAmong_ring : ring.StoredAmong () ["a", "b"] :=
  storedAmong_ofTexts

theorem ends_ring :
    Ends (ring.getSchemaUncached 4 "a") () (.error (.cyclicExtend ["a", "b", "a"])) () := by
  unfold Ends
  decide +kernel

theorem ring_is_reported :
    ring.StoredAmong () ["a", "b"] ∧
      (∀ levels, levelsFor 2 0 ≤ levels →
        Ends (ring.getSchemaUncached levels "a") () (.error (.cyclicExtend ["a", "b", "a"])) ()) ∧
      ring.IsCycleFrom () (Name.normalize "a") ["a", "b", "a"] := by
  obtain ⟨result, hends, -, hcycle⟩ := exists_answer_of_storedAmong storedAmong_ring "a"
  obtain rfl : result = .error (.cyclicExtend ["a", "b", "a"]) :=
    (answers_of_ends ⟨rfl, rfl⟩ (hends _ (Nat.le_refl _))).unique
      (answers_of_ends ⟨rfl, rfl⟩ ends_ring)
  exact ⟨storedAmong_ring, hends, hcycle _ rfl⟩

end Registry
end Schemata
