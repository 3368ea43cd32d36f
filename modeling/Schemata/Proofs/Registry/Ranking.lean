import Schemata.Proofs.Building.Descent
import Schemata.Proofs.Registry.Termination

/-!
# Fetches under a ranking

Through a cache the chain does not bound a fetch: a cached text is answered before its name joins
the chain, and whatever references it has are followed where it is merged.  What bounds the fetch is
a ranking of the names under an invariant of the state.  A document leads to names of lower rank, or
it is one of finitely many and leads to names of no higher rank; a cached text leads to names of
lower rank, in whatever directory it is read.
-/

namespace Schemata
namespace Registry

open Build (Completes Ends)
open Json (Members Value depthLimit)

variable {σ : Type} {r : Registry σ} {I : σ → Prop} {Source : String → Prop} {rank : String → Nat}
  {names chain : List String} {name other directory reference text : String} {bound levels : Nat}

/-! ## Rankings -/

/-- If no name that a text drops to leads back to the name of the text, then the names have a
ranking by how many texts they lead to, told apart by their keys. -/
theorem exists_rank {α β : Type} (leads drops : α → α → Prop) (key : α → β) (keys : List β)
    (hdrops : ∀ {a b}, drops a b → leads a b ∧ key a ∈ keys)
    (hkey : ∀ {a b}, key a = key b → leads a b)
    (hnone : ∀ {a b}, drops a b → ¬ Relation.ReflTransGen leads b a) :
    ∃ rank : α → Nat, (∀ {a b}, leads a b → rank b ≤ rank a) ∧
      (∀ {a b}, drops a b → rank b < rank a) ∧ ∀ a, rank a ≤ keys.length := by
  classical
  let above (a : α) : Finset β := keys.toFinset.filter fun k =>
    ∃ c d, key c = k ∧ Relation.ReflTransGen leads a c ∧ drops c d
  have hmem : ∀ {a k}, k ∈ above a ↔
      k ∈ keys ∧ ∃ c d, key c = k ∧ Relation.ReflTransGen leads a c ∧ drops c d := by
    intro a k
    rw [Finset.mem_filter, List.mem_toFinset]
  have hsubset : ∀ {a b}, leads a b → above b ⊆ above a := by
    intro a b hab k hk
    obtain ⟨hk, c, d, hc, hpath, hcd⟩ := hmem.mp hk
    exact hmem.mpr ⟨hk, c, d, hc, hpath.head hab, hcd⟩
  refine ⟨fun a => (above a).card, fun hab => Finset.card_le_card (hsubset hab),
    fun {a b} hab => Finset.card_lt_card ?_, fun a => ?_⟩
  · -- the key of the text itself is lost
    obtain ⟨hleads, hkeys⟩ := hdrops hab
    rw [Finset.ssubset_iff_of_subset (hsubset hleads)]
    refine ⟨key a, hmem.mpr ⟨hkeys, a, b, rfl, .refl, hab⟩, fun hlost => ?_⟩
    obtain ⟨-, c, d, hc, hpath, -⟩ := hmem.mp hlost
    exact hnone hab (hpath.tail (hkey hc))
  · exact (Finset.card_le_card (Finset.filter_subset _ _)).trans (List.toFinset_card_le keys)

/-- Wherever there is a source, the reference stands for a name of lower rank. -/
def Below (r : Registry σ) (Source : String → Prop) (rank : String → Nat) (bound : Nat)
    (reference : String) : Prop :=
  ∀ source, Source source → rank (r.target (Name.directory source) reference) < bound

/-- All references of the text are below the rank. -/
def TextBelow (r : Registry σ) (Source : String → Prop) (rank : String → Nat) (bound : Nat)
    (text : String) : Prop :=
  ∀ members, Value.read text = .ok (.object members) →
    ∀ reference, Node.Mentions members reference → r.Below Source rank bound reference

theorem Below.mono {more : Nat} (h : r.Below Source rank bound reference) (hle : bound ≤ more) :
    r.Below Source rank more reference :=
  fun source hsource => Nat.lt_of_lt_of_le (h source hsource) hle

theorem TextBelow.mono {more : Nat} (h : r.TextBelow Source rank bound text) (hle : bound ≤ more) :
    r.TextBelow Source rank more text :=
  fun members hread reference hmentions => (h members hread reference hmentions).mono hle

/-- The reference leads from the name to a lower rank, or from one of finitely many names to no
higher rank. -/
def Leads (r : Registry σ) (rank : String → Nat) (names : List String) (name reference : String) :
    Prop :=
  rank (r.target (Name.directory name) reference) < rank name ∨
    name ∈ names ∧ rank (r.target (Name.directory name) reference) ≤ rank name

theorem Leads.le (h : r.Leads rank names name reference) :
    rank (r.target (Name.directory name) reference) ≤ rank name :=
  h.elim Nat.le_of_lt And.right

/-- Under the invariant documents and cached texts keep to the ranking, and a text that does so may
be put into the cache. -/
structure Ranked (r : Registry σ) (I : σ → Prop) (Source : String → Prop) (rank : String → Nat)
    (names : List String) : Prop where
  document : ∀ s, I s → ∀ name document, Name.normalize name = name →
    r.document? s name = some document →
      Source name ∧
        ∀ reference, Node.Mentions document reference → r.Leads rank names name reference
  hit : ∀ s, I s → ∀ cache, r.cache = some cache → ∀ name bytes text,
    cache.get s (cacheKey name) = .ok (some bytes) → Utf8.decode bytes = .ok text →
      r.TextBelow Source rank (rank name) text
  put : ∀ s, I s → ∀ cache, r.cache = some cache → ∀ name text,
    r.TextBelow Source rank (rank name) text → I (cache.put s (cacheKey name) text.toUTF8).2

/-! ## Fetching -/

theorem fresh_append_le (names chain : List String) (name : String) :
    fresh names (chain ++ [name]) ≤ fresh names chain := by
  refine (List.monotone_filter_right names fun other hother => ?_).length_le
  simp only [List.mem_append, decide_eq_true_eq, not_or] at hother ⊢
  exact hother.1

/-- What the tree of a parent may still take: the levels of one document for each rank. -/
def levelsOf (r : Registry σ) (rank : String → Nat) (directory reference : String) : Nat :=
  (rank (r.target directory reference) + 1) * depthLimit

/-- The text of a tree refers to what the tree refers to. -/
theorem textBelow_of_mentions {built : Members} (hu : Value.Unique (.object built))
    (h : ∀ reference, Node.Mentions built reference → r.Below Source rank bound reference) :
    r.TextBelow Source rank bound (builtText built) := by
  intro members hread reference hmentions
  have hparse : parseDocument inlineName (builtText built) = .ok members :=
    parseDocument_eq_ok.mpr hread
  rw [(eq_of_parseDocument_compact hu hparse).1] at hmentions
  exact h reference hmentions.of_reread

/-- The tree of a parent takes the levels that its reference is given. -/
theorem tame_of_textBelow {members : Members} {source : String} (hsource : Source source)
    (hparse : parseDocument other text = .ok members)
    (htext : r.TextBelow Source rank bound text) :
    Node.Tame (r.levelsOf rank (Name.directory source)) (r.Below Source rank bound)
      ((bound + 1) * depthLimit) members := by
  have hmentions := htext members (parseDocument_eq_ok.mp hparse)
  refine ⟨unique_of_parseDocument hparse, ?_, hmentions⟩
  rw [Nat.succ_mul]
  apply Node.bounded_of_lowerThan
  · exact Node.lowerThan_of_nesting (nesting_le_of_parseDocument hparse)
  · intro reference hreference
    exact Nat.mul_le_mul_right _ (hmentions reference hreference source hsource)

theorem completes_parent {fetch : List String → String → Build σ String} {source : String}
    (hsource : Source source)
    (hfetch : r.target (Name.directory source) reference ∉ chain →
      Completes I (r.TextBelow Source rank bound)
        (fetch chain (r.target (Name.directory source) reference))) :
    Completes I (Node.Tame (r.levelsOf rank (Name.directory source)) (r.Below Source rank bound)
        ((bound + 1) * depthLimit))
      (r.parent fetch chain (Name.directory source) reference) := by
  unfold parent
  simp only []
  split
  · exact .throw
  · case isFalse hmem =>
    have hfresh : r.target (Name.directory source) reference ∉ chain :=
      fun h => hmem (List.contains_iff_mem.mpr h)
    refine ((hfetch hfresh).bind fun text htext => ?_).mapError
    exact .ofExcept fun members hparse => tame_of_textBelow hsource hparse htext

/-- A reference takes fewer levels than the name: its rank is lower, or the name is new to the
chain. -/
theorem levels_lt_of_leads (href : r.Leads rank names name reference) (hchain : name ∉ chain) :
    (rank (r.target (Name.directory name) reference) + 2) * depthLimit +
        fresh names (chain ++ [name]) <
      (rank name + 2) * depthLimit + fresh names chain := by
  have hscaled : ∀ n, (n + 2) * depthLimit = n * depthLimit + 2 * depthLimit :=
    fun n => Nat.add_mul n 2 depthLimit
  rw [hscaled (rank name), hscaled (rank _)]
  rcases href with hlt | ⟨hknown, hle⟩
  · have hfresh := fresh_append_le names chain name
    have hrank := Nat.mul_le_mul_right depthLimit (Nat.succ_le_of_lt hlt)
    have hpos : 0 < depthLimit := by decide
    rw [Nat.succ_mul] at hrank
    omega
  · have hfresh := fresh_append_lt hknown hchain
    have hrank := Nat.mul_le_mul_right depthLimit hle
    omega

section Ranked

variable (hranked : r.Ranked I Source rank names)
include hranked

theorem completes_readCache :
    Completes I (fun found => ∀ text, found = some text → r.TextBelow Source rank (rank name) text)
      (r.readCache name) := by
  unfold readCache
  split
  · exact .pure (by simp)
  · case h_2 cache hcache =>
    refine Completes.get.bind fun s hs => ?_
    split
    · exact .throw
    · exact .pure (by simp)
    · case h_3 bytes hbytes =>
      split
      · exact .throw
      · case h_2 decoded hdecode =>
        split
        · refine .pure ?_
          rintro text ⟨⟩
          exact hranked.hit s hs cache hcache name bytes decoded hbytes hdecode
        · exact .throw

theorem completes_loadDocument (hnormal : Name.normalize name = name) :
    Completes I (fun loaded => Value.Unique (.object loaded.2) ∧
        Value.nesting (.object loaded.2) ≤ depthLimit ∧ Source name ∧
          ∀ reference, Node.Mentions loaded.2 reference → r.Leads rank names name reference)
      (r.loadDocument name) := by
  intro s hs
  refine ⟨_, s, ends_loadDocument.mpr ⟨rfl, rfl⟩, hs, fun loaded hloaded => ?_⟩
  have hdocument : r.document? s name = some loaded.2 := document?_eq_some.mpr ⟨loaded.1, hloaded⟩
  exact ⟨unique_of_document? hdocument, nesting_le_of_document? hdocument,
    hranked.document s hs name loaded.2 hnormal hdocument⟩

theorem completes_writeCache (htext : r.TextBelow Source rank (rank name) text) :
    Completes I (fun _ => True) (r.writeCache name text) := by
  unfold writeCache
  split
  · exact .pure trivial
  · case h_2 cache hcache =>
    refine Completes.get.bind fun s hs => ?_
    refine (Completes.set (hranked.put s hs cache hcache name text htext)).bind fun _ _ => ?_
    split
    · exact .pure trivial
    · exact .throw

omit hranked in
/-- A document is built with the levels of the ranks up to its own. -/
theorem completes_buildNode {fetch : List String → String → Build σ String} {document : Members}
    (hu : Value.Unique (.object document))
    (hnesting : Value.nesting (.object document) ≤ depthLimit) (hsource : Source name)
    (hleads : ∀ reference, Node.Mentions document reference → r.Leads rank names name reference)
    (hlevels : (rank name + 2) * depthLimit ≤ levels)
    (hfetch : ∀ reference, r.Leads rank names name reference →
      r.target (Name.directory name) reference ∉ chain →
        Completes I (r.TextBelow Source rank (rank (r.target (Name.directory name) reference)))
          (fetch chain (r.target (Name.directory name) reference))) :
    Completes I (fun built => Value.Unique (.object built) ∧
        ∀ reference, Node.Mentions built reference → r.Below Source rank (rank name) reference)
      (Building.buildNode (r.parent fetch chain (Name.directory name)) levels [] document) := by
  have hbounded : Node.Bounded (r.levelsOf rank (Name.directory name))
      ((rank name + 1) * depthLimit + depthLimit) document := by
    apply Node.bounded_of_lowerThan
    · exact Node.lowerThan_of_nesting hnesting
    · intro reference hmentions
      exact Nat.mul_le_mul_right _ (Nat.succ_le_succ (hleads reference hmentions).le)
  have hlevels' : (rank name + 1) * depthLimit + depthLimit ≤ levels := by
    rwa [← Nat.succ_mul]
  refine Building.completes_of_bounded ?_ ?_ ⟨hu, hbounded, hleads⟩ hlevels'
  · exact fun reference hbelow => Or.inl (hbelow name hsource)
  · intro reference href
    refine (completes_parent hsource (hfetch reference href)).imp ?_
    intro members hmembers
    exact hmembers.mono (Nat.le_refl _) fun _ hbelow => hbelow.mono href.le

/-- Each of finitely many names that is not under construction takes one level, and each rank those
of a document. -/
theorem completes_fetch (hchain : Name.normalize name ∉ chain)
    (hlevels : (rank (Name.normalize name) + 2) * depthLimit + fresh names chain < levels) :
    Completes I (r.TextBelow Source rank (rank (Name.normalize name)))
      (r.fetch true levels chain name) := by
  -- a hit does not go on; a document makes the chain longer by one of the names, or it leads to
  -- lower ranks, which leaves the levels of a whole document
  induction levels generalizing chain name with
  | zero => omega
  | succ levels ih =>
    rw [fetch]
    refine (completes_readCache hranked).bind fun found hfound => ?_
    cases found with
    | some text => exact .pure (hfound text rfl)
    | none =>
      have hnormal := Name.normalize_normalize name
      refine (completes_loadDocument hranked hnormal).bind fun loaded hloaded => ?_
      obtain ⟨hu, hnesting, hsource, hleads⟩ := hloaded
      refine (completes_buildNode hu hnesting hsource hleads (by omega)
        fun reference href hmem => ?_).bind fun built hbuilt => ?_
      · have hfewer := levels_lt_of_leads href hchain
        generalize htarget : r.target (Name.directory (Name.normalize name)) reference = other
          at hmem hfewer ⊢
        have hother : Name.normalize other = other := htarget ▸ normalize_target
        have hbelow := ih (by rwa [hother]) (by rw [hother]; omega)
        rwa [hother] at hbelow
      · have htext := textBelow_of_mentions hbuilt.1 hbuilt.2
        exact (completes_writeCache hranked htext).bind fun _ _ => .pure htext

/-- Under a ranking every name is answered, and the registry's levels are enough. -/
theorem Ranked.exists_ends {s : σ} {documents cached : Nat} (hs : I s)
    (hcached : r.usesCache = true) (hnames : names.length ≤ documents)
    (hrank : ∀ name, rank name ≤ cached) (name : String) :
    ∃ result t, ∀ levels, levelsFor documents cached ≤ levels →
      Ends (r.getSchema levels name) s result t := by
  have hlevels : (rank (Name.normalize name) + 2) * depthLimit + fresh names [] <
      levelsFor documents cached := by
    have hfresh : fresh names [] ≤ names.length := List.length_filter_le _ _
    have hle := hrank (Name.normalize name)
    unfold levelsFor depthLimit
    omega
  obtain ⟨result, t, hends, -⟩ := completes_fetch hranked List.not_mem_nil hlevels s hs
  refine ⟨result, t, fun levels hle => ?_⟩
  rw [getSchema, hcached]
  exact approximates_fetch hle _ _ _ _ _ hends

end Ranked

end Registry
end Schemata
