import Schemata.Proofs.Building.Success
import Schemata.Proofs.Registry.Fetch

/-!
# The answer of a name

More levels change no answer, so a name has one answer under a chain of names, if it has any.  A
text is only answered if everything that the name reaches is stored and nothing of it reaches
itself; therefore the chain has no say in which text it is.
-/

namespace Schemata

namespace SchemaError

/-- The error reports a cycle, and nothing is wrapped around it. -/
def IsCyclic (e : SchemaError) : Prop :=
  ∃ cycle, e = .cyclicExtend cycle

theorem IsCyclic.through {e : SchemaError} (h : e.IsCyclic) (reference : String) :
    (e.through reference).IsCyclic := by
  obtain ⟨cycle, rfl⟩ := h
  exact ⟨cycle, rfl⟩

end SchemaError

namespace Registry

open Build (Ends Reads)
open Building (exists_answer_of_ok)
open Json (Members Value)

variable {σ : Type} {r : Registry σ} {s : σ} {levels : Nat} {chain chain' : List String}
  {name other text : String} {result : Except SchemaError String}

/-- A text is only answered for a stored document. -/
theorem exists_document_of_ends {t : σ}
    (h : Ends (r.fetch false levels chain name) s (.ok text) t) :
    ∃ document, r.document? s (Name.normalize name) = some document := by
  cases levels with
  | zero => exact absurd h Build.not_ends_unfinished
  | succ levels =>
    obtain ⟨document, hdocument, -⟩ := ends_fetch_uncached_ok.mp h
    exact ⟨document, hdocument⟩

/-- With levels enough, the fetch of a name under a chain ends with the result. -/
def Answers (r : Registry σ) (s : σ) (chain : List String) (name : String)
    (result : Except SchemaError String) : Prop :=
  Eventually fun levels => Ends (r.fetch false levels chain name) s result s

theorem Answers.unique {result' : Except SchemaError String} (h : r.Answers s chain name result)
    (h' : r.Answers s chain name result') : result = result' := by
  obtain ⟨levels, hends, hends'⟩ := (h.and h').exists
  exact (hends.unique hends').1

/-! ## One step -/

theorem answers_of_loaded {e : SchemaError} (h : r.loaded s (Name.normalize name) = .error e) :
    r.Answers s chain name (.error e) := by
  refine ⟨1, fun levels hlevels => ?_⟩
  obtain ⟨more, rfl⟩ : ∃ more, levels = more + 1 := ⟨levels - 1, by omega⟩
  exact ends_fetch_uncached.mpr (Or.inl ⟨e, h, rfl, rfl⟩)

theorem answers_of_document {document : Members}
    (hdocument : r.document? s (Name.normalize name) = some document)
    (h : Eventually fun i =>
      Ends (buildDocument (r.parents i chain (Name.normalize name)) i document) s result s) :
    r.Answers s chain name result := by
  obtain ⟨enough, h⟩ := h
  refine ⟨enough + 1, fun levels hlevels => ?_⟩
  obtain ⟨more, rfl⟩ : ∃ more, levels = more + 1 := ⟨levels - 1, by omega⟩
  exact ends_fetch_uncached.mpr (Or.inr ⟨document, hdocument, h more (by omega)⟩)

/-! ## How a fetch fails -/

/-- Why a fetch fails that has one level more: by the document, by a cycle that closes at a
reference, or by a parent, which has no text or one that is no document. -/
inductive FailsBy (r : Registry σ) (s : σ) (levels : Nat) (chain : List String) (name : String) :
    SchemaError → Prop
  | document {e : SchemaError} : r.loaded s name = .error e → FailsBy r s levels chain name e
  | node {e : SchemaError} : e.BlamesNode → FailsBy r s levels chain name e
  | cycle {other : String} : r.Refers s name other → other ∈ chain ++ [name] →
      FailsBy r s levels chain name (.cyclicExtend (chain ++ [name] ++ [other]))
  | parent {other : String} {e inner : SchemaError} : r.Refers s name other →
      other ∉ chain ++ [name] →
        Ends (r.fetch false levels (chain ++ [name]) other) s (.error inner) s →
          e = inner.through other → FailsBy r s levels chain name e
  | text {other text : String} {inner : SchemaError} : r.Refers s name other →
      Ends (r.fetch false levels (chain ++ [name]) other) s (.ok text) s →
        parseDocument other text = .error inner →
          FailsBy r s levels chain name (.brokenExtend other inner)

theorem failsBy_of_ends {e : SchemaError} {t : σ}
    (h : Ends (r.fetch false (levels + 1) chain name) s (.error e) t) :
    r.FailsBy s levels chain (Name.normalize name) e := by
  rcases ends_fetch_uncached.mp h with ⟨inner, hloaded, he, -⟩ | ⟨document, hdocument, hbuild⟩
  · obtain rfl := Except.error.inj he
    exact .document hloaded
  · obtain ⟨-, -, herror⟩ := outcome_buildDocument (unique_of_document? hdocument)
      (fun reference _ => reads_parents levels chain _ reference) hbuild
    rcases herror e rfl with hblames | ⟨reference, hmentions, hparent⟩
    · exact .node hblames
    have hrefers : r.Refers s (Name.normalize name)
        (r.target (Name.directory (Name.normalize name)) reference) :=
      ⟨document, hdocument, reference, hmentions, rfl⟩
    rcases ends_parent.mp hparent with
      ⟨hmem, he, -⟩ | ⟨hmem, ⟨text, htext, he⟩ | ⟨inner, hinner, he⟩⟩
    · obtain rfl := Except.error.inj he
      exact .cycle hrefers hmem
    · obtain ⟨inner, hparse, rfl⟩ := mapError_eq_error.mp he.symm
      obtain ⟨fault, rfl⟩ := exists_fault_of_parseDocument hparse
      exact .text hrefers htext hparse
    · exact .parent hrefers hmem hinner (Except.error.inj he)

/-! ## The same documents -/

section SameSource

variable {τ : Type} {r' : Registry τ} {s' : τ}

/-- Where all documents that a name leads to are the same, its fetch without a cache is followed by
one with as many levels. -/
theorem following_agreeFrom (levels : Nat) (chain : List String)
    (hagree : AgreeFrom r s r' s' (Name.normalize name)) :
    (Simulation.following (.still s) (fun _ => False) s').Relates BuiltText
      (r.fetch false levels chain name) fun _ => r'.fetch false levels chain name := by
  induction levels generalizing chain name with
  | zero => exact Simulation.unfinished _
  | succ levels ih =>
    intro u hu result t h
    obtain rfl : u = s := hu
    rcases ends_fetch_uncached.mp h with ⟨e, hloaded, rfl, rfl⟩ | ⟨document, hdocument, hbuild⟩
    · refine ⟨rfl, trivial, by simp, ?_⟩
      rintro e' ⟨⟩
      rw [← hagree.loaded] at hloaded
      exact Or.inr (.of_forall fun _ => ends_fetch_uncached.mpr (Or.inl ⟨e, hloaded, rfl, rfl⟩))
    · have hfollow : (Simulation.following (.still u) (fun _ => False) s').Relates BuiltText
          (buildDocument (r.parents levels chain (Name.normalize name)) levels document)
          fun _ => buildDocument (r'.parents levels chain (Name.normalize name)) levels
            document := by
        refine relates_buildDocument _ (unique_of_document? hdocument) fun reference hmentions => ?_
        have hrefers : r.Refers u (Name.normalize name)
            (r.target (Name.directory (Name.normalize name)) reference) :=
          ⟨document, hdocument, reference, hmentions, rfl⟩
        refine following_parent (by rw [hagree.target]) (fun _ _ => id) (fun _ => Or.inr rfl) id
          fun _ => ih _ ?_
        rw [normalize_target]
        exact hagree.step hrefers
      rw [← hagree.document?] at hdocument
      refine Simulation.following_mono hfollow (fun result hends => ?_) u rfl _ _ hbuild
      exact hends.imp fun _ hi => ends_fetch_uncached.mpr (Or.inr ⟨document, hdocument, hi⟩)

/-- Where all documents that a name leads to are the same, its fetch without a cache ends in the
same way. -/
theorem ends_fetch_of_agreeFrom (hagree : AgreeFrom r s r' s' (Name.normalize name)) {t : σ}
    (h : Ends (r.fetch false levels chain name) s result t) :
    Ends (r'.fetch false levels chain name) s' result s' := by
  obtain ⟨-, -, hok, herror⟩ := following_agreeFrom levels chain hagree s rfl _ _ h
  cases result with
  | ok text => exact (hok text rfl).2.exists.choose_spec
  | error e => exact ((herror e rfl).resolve_left id).exists.choose_spec

/-- Over the same documents a fetch without a cache ends in the same way. -/
theorem ends_fetch_of_sameSource (hsame : SameSource r s r' s') {t : σ}
    (h : Ends (r.fetch false levels chain name) s result t) :
    Ends (r'.fetch false levels chain name) s' result s' :=
  ends_fetch_of_agreeFrom (hsame.agreeFrom _) h

/-- However many levels it took, the result is the answer, wherever the same documents are. -/
theorem answers_of_ends (hsame : SameSource r s r' s') {t : σ}
    (h : Ends (r.fetch false levels chain name) s result t) :
    r'.Answers s' chain name result :=
  ⟨levels, fun _ hlevels =>
    approximates_fetch hlevels _ _ _ _ _ (ends_fetch_of_sameSource hsame h)⟩

/-- With more levels a fetch without a cache is followed too. -/
theorem following_fetch (hsame : SameSource r s r' s') (levels : Nat) (chain : List String)
    (name : String) :
    (Simulation.following (.still s) (fun _ => False) s').Relates BuiltText
      (r.fetch false levels chain name) fun i => r'.fetch false i chain name := by
  intro u hu result t h
  obtain rfl : u = s := hu
  obtain ⟨rfl, hbuilt⟩ := reads_fetch levels chain name _ _ h
  refine ⟨rfl, trivial, ?_, ?_⟩
  · rintro text rfl
    exact ⟨hbuilt text rfl, answers_of_ends hsame h⟩
  · rintro e rfl
    exact Or.inr (answers_of_ends hsame h)

end SameSource

theorem Answers.builtText (h : r.Answers s chain name (.ok text)) : BuiltText text := by
  obtain ⟨levels, h⟩ := h.exists
  exact (reads_fetch levels chain name _ _ h).2 text rfl

theorem fetch_normalize {cached : Bool} :
    r.fetch cached levels chain (Name.normalize name) = r.fetch cached levels chain name := by
  cases levels with
  | zero => rfl
  | succ levels => rw [fetch, fetch, Name.normalize_normalize]

theorem answers_normalize_iff :
    r.Answers s chain (Name.normalize name) result ↔ r.Answers s chain name result := by
  unfold Answers
  simp only [fetch_normalize]

/-! ## What a text tells -/

/-- A text is answered from a stored document.  Each of its references leads to a name outside the
chain, with a text that is a document itself. -/
theorem Answers.parents (h : r.Answers s chain name (.ok text)) :
    ∃ document, r.document? s (Name.normalize name) = some document ∧
      ∀ other, r.Refers s (Name.normalize name) other →
        other ∉ chain ++ [Name.normalize name] ∧ ∃ parentText members,
          r.Answers s (chain ++ [Name.normalize name]) other (.ok parentText) ∧
            parseDocument other parentText = .ok members := by
  obtain ⟨levels, hlevels⟩ := h.exists
  cases levels with
  | zero => exact absurd hlevels Build.not_ends_unfinished
  | succ levels =>
    obtain ⟨document, hdocument, built, hbuilt, -⟩ := ends_fetch_uncached_ok.mp hlevels
    refine ⟨document, hdocument, ?_⟩
    rintro other ⟨document', hdocument', reference, hmentions, rfl⟩
    rw [hdocument, Option.some.injEq] at hdocument'
    subst hdocument'
    obtain ⟨members, hparent⟩ := exists_answer_of_ok (unique_of_document? hdocument)
      (reads_parents levels chain _) hbuilt hmentions
    obtain ⟨hmem, parentText, htext, hparse⟩ := ends_parent_ok.mp hparent
    exact ⟨hmem, parentText, members, answers_of_ends ⟨rfl, rfl⟩ htext, hparse⟩

/-- A text is answered from a stored document whose references all lead to texts, and to no name
of the chain. -/
theorem Answers.step (h : r.Answers s chain name (.ok text)) :
    ∃ document, r.document? s (Name.normalize name) = some document ∧
      ∀ other, r.Refers s (Name.normalize name) other →
        other ∉ chain ++ [Name.normalize name] ∧
          ∃ parentText, r.Answers s (chain ++ [Name.normalize name]) other (.ok parentText) := by
  obtain ⟨document, hdocument, hparents⟩ := h.parents
  refine ⟨document, hdocument, fun other hrefers => ?_⟩
  obtain ⟨hmem, parentText, -, hanswers, -⟩ := hparents other hrefers
  exact ⟨hmem, parentText, hanswers⟩

/-- Names reached from a name whose text is answered are answered too, under longer chains. -/
theorem Answers.below (h : r.Answers s chain name (.ok text)) (hnormal : Name.normalize name = name)
    (hreach : r.Reaches s name other) :
    ∃ more parentText, name ∈ more ∧ other ∉ chain ++ more ∧ Name.normalize other = other ∧
      r.Answers s (chain ++ more) other (.ok parentText) := by
  induction hreach with
  | single hrefers =>
    obtain ⟨document, -, hstep⟩ := h.step
    rw [hnormal] at hstep
    obtain ⟨hmem, parentText, hanswers⟩ := hstep _ hrefers
    exact ⟨[name], parentText, List.mem_singleton_self name, hmem, hrefers.normal, hanswers⟩
  | @tail middle last _ hrefers ih =>
    obtain ⟨more, middleText, hname, -, hmiddle, hanswers⟩ := ih
    obtain ⟨document, -, hstep⟩ := hanswers.step
    rw [hmiddle] at hstep
    obtain ⟨hmem, parentText, hlast⟩ := hstep _ hrefers
    rw [List.append_assoc] at hmem hlast
    exact ⟨more ++ [middle], parentText, List.mem_append_left _ hname, hmem, hrefers.normal, hlast⟩

/-- A name whose text is answered reaches neither itself nor a name of the chain. -/
theorem Answers.not_reaches (h : r.Answers s chain name (.ok text))
    (hnormal : Name.normalize name = name) (hother : other ∈ chain ++ [name]) :
    ¬ r.Reaches s name other := by
  intro hreach
  obtain ⟨more, -, hname, hmem, -⟩ := h.below hnormal hreach
  refine hmem ?_
  rcases List.mem_append.mp hother with hchain | hself
  · exact List.mem_append_left _ hchain
  · rw [List.mem_singleton.mp hself]
    exact List.mem_append_right _ hname

/-- What a name with a text reaches is stored. -/
theorem Answers.stored (h : r.Answers s chain name (.ok text))
    (hnormal : Name.normalize name = name)
    (hreach : Relation.ReflTransGen (r.Refers s) name other) :
    ∃ document, r.document? s other = some document := by
  rcases Relation.reflTransGen_iff_eq_or_transGen.mp hreach with rfl | hreach
  · obtain ⟨document, hdocument, -⟩ := h.step
    exact ⟨document, hnormal ▸ hdocument⟩
  · obtain ⟨more, parentText, -, -, hother, hanswers⟩ := h.below hnormal hreach
    obtain ⟨document, hdocument, -⟩ := hanswers.step
    exact ⟨document, hother ▸ hdocument⟩

/-- Nothing that a name with a text reaches leads back to itself. -/
theorem Answers.acyclic (h : r.Answers s chain name (.ok text))
    (hnormal : Name.normalize name = name)
    (hreach : Relation.ReflTransGen (r.Refers s) name other) : ¬ r.Reaches s other other := by
  rcases Relation.reflTransGen_iff_eq_or_transGen.mp hreach with rfl | hreach
  · exact h.not_reaches hnormal (List.mem_append_right _ (List.mem_singleton_self _))
  · obtain ⟨more, parentText, -, -, hother, hanswers⟩ := h.below hnormal hreach
    exact hanswers.not_reaches hother (List.mem_append_right _ (List.mem_singleton_self _))

/-! ## The chain -/

/-- A chain of fewer names, as far as the name reaches them, only spares cycles. -/
theorem following_chain (levels : Nat)
    (hfewer : ∀ other, r.Reaches s (Name.normalize name) other → other ∈ chain' → other ∈ chain) :
    (Simulation.following (.still s) SchemaError.IsCyclic s).Relates BuiltText
      (r.fetch false levels chain name) fun i => r.fetch false i chain' name := by
  induction levels generalizing chain chain' name with
  | zero => exact Simulation.unfinished _
  | succ levels ih =>
    intro u hu result t h
    obtain rfl : u = s := hu
    rcases ends_fetch_uncached.mp h with ⟨e, hloaded, rfl, rfl⟩ | ⟨document, hdocument, hbuild⟩
    · refine ⟨rfl, trivial, by simp, ?_⟩
      rintro e' ⟨⟩
      exact Or.inr (answers_of_loaded hloaded)
    · have hfollow : (Simulation.following (.still u) SchemaError.IsCyclic u).Relates BuiltText
          (buildDocument (r.parents levels chain (Name.normalize name)) levels document)
          fun i => buildDocument (r.parents i chain' (Name.normalize name)) i document := by
        refine following_buildDocument (unique_of_document? hdocument) fun reference hmentions => ?_
        have hrefers : r.Refers u (Name.normalize name)
            (r.target (Name.directory (Name.normalize name)) reference) :=
          ⟨document, hdocument, reference, hmentions, rfl⟩
        -- the name itself joins both chains, and what a parent reaches the name reaches too
        have hlonger : ∀ other, r.Reaches u (Name.normalize name) other →
            other ∈ chain' ++ [Name.normalize name] → other ∈ chain ++ [Name.normalize name] := by
          intro other hreach hmem
          rcases List.mem_append.mp hmem with hchain | hself
          · exact List.mem_append_left _ (hfewer other hreach hchain)
          · exact List.mem_append_right _ hself
        refine following_parent rfl (fun _ _ he => he.through _) (fun _ => Or.inl ⟨_, rfl⟩)
          (fun hmem hmem' => hmem (hlonger _ (.single hrefers) hmem')) fun _ => ih ?_
        rw [normalize_target]
        exact fun other hreach => hlonger other (hreach.head hrefers)
      exact Simulation.following_mono hfollow (fun _ => answers_of_document hdocument) u rfl _ _
        hbuild

/-- The chain has no say in which text is answered. -/
theorem Answers.ok_of_chain (h : r.Answers s chain name (.ok text))
    (hnormal : Name.normalize name = name)
    (hfresh : ∀ other ∈ chain', ¬ r.Reaches s name other) :
    r.Answers s chain' name (.ok text) := by
  obtain ⟨levels, hends⟩ := h.exists
  have hfollow : (Simulation.following (.still s) SchemaError.IsCyclic s).Relates BuiltText
      (r.fetch false levels chain name) fun i => r.fetch false i chain' name := by
    apply following_chain
    intro other hreach hmem
    rw [hnormal] at hreach
    exact absurd hreach (hfresh other hmem)
  exact ((hfollow s rfl _ _ hends).2.2.1 text rfl).2

/-- What a name with a text reaches has a text that is a document itself. -/
theorem Answers.parsed (h : r.Answers s [] name (.ok text)) (hnormal : Name.normalize name = name)
    (hreach : r.Reaches s name other) :
    ∃ parentText members, r.Answers s [] other (.ok parentText) ∧
      parseDocument other parentText = .ok members := by
  have hstep : ∀ {middle middleText last}, r.Answers s [] middle (.ok middleText) →
      Name.normalize middle = middle → r.Refers s middle last →
        ∃ parentText members, r.Answers s [] last (.ok parentText) ∧
          parseDocument last parentText = .ok members := by
    intro middle middleText last hmiddle hnormal hrefers
    obtain ⟨-, -, hparents⟩ := hmiddle.parents
    rw [hnormal] at hparents
    obtain ⟨-, parentText, members, hanswers, hparse⟩ := hparents last hrefers
    exact ⟨parentText, members, hanswers.ok_of_chain hrefers.normal (by simp), hparse⟩
  induction hreach with
  | single hrefers => exact hstep h hnormal hrefers
  | tail hreach hrefers ih =>
    obtain ⟨middleText, -, hmiddle, -⟩ := ih
    exact hstep hmiddle (normal_of_reaches hreach) hrefers

/-- Any error but a cycle stays the same under a chain of fewer names. -/
theorem Answers.error_of_chain {e : SchemaError} (h : r.Answers s chain name (.error e))
    (hcyclic : ¬ e.IsCyclic) (hsub : chain' ⊆ chain) : r.Answers s chain' name (.error e) := by
  obtain ⟨levels, hends⟩ := h.exists
  have hfollow : (Simulation.following (.still s) SchemaError.IsCyclic s).Relates BuiltText
      (r.fetch false levels chain name) fun i => r.fetch false i chain' name :=
    following_chain levels fun _ _ hmem => hsub hmem
  exact ((hfollow s rfl _ _ hends).2.2.2 e rfl).resolve_left hcyclic

end Registry
end Schemata
