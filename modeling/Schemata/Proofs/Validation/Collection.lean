import Mathlib.Data.List.Induction
import Schemata.Proofs.Json.Tree
import Schemata.Proofs.Validation.Errors

/-!
# Collections over a run

A collection is filled by reports, emptied by draining it, and replaced by what a text describes.
Reports leave no path without messages; a text may, since a list in it may be empty.  Such a bare
path stays until a message arrives there, the collection is drained, or another text replaces it
(`bare_after_iff`), and as long as it is there the number of paths is not that of the paths with
messages.  What is printed has one entry for each message in any case.
-/

namespace Schemata.Validation.Errors

open Json (Members Value)

/-- What can be done to a collection. -/
inductive Change where
  | add (path message : String)
  | drain
  | load (text : String)

/-- The collection after one change; a text that describes no collection changes nothing. -/
def change (e : Errors) : Change → Errors
  | .add path message => e.add path message
  | .drain => e.drain.2
  | .load text => (ofText? text).getD e

/-- What changes make of the empty collection, in turn. -/
def after (changes : List Change) : Errors :=
  changes.foldl change empty

theorem after_concat (changes : List Change) (c : Change) :
    after (changes ++ [c]) = (after changes).change c := by
  rw [after, List.foldl_append]
  rfl

/-- The path is stored without a message. -/
def Bare (e : Errors) (path : String) : Prop :=
  (path, []) ∈ e.entries

/-! ## Reading a collection -/

/-- The members of an object are taken in if each of them is a list of strings; then every path has
the last list under it, or what it had before. -/
theorem ofMembers?_eq_some {entries result : List (String × List String)} {members : Members}
    (h : ofMembers? entries members = some result) (hordered : Ordered ⟨entries⟩) :
    Ordered ⟨result⟩ ∧ (∀ member ∈ members, (strings? member.2).isSome) ∧
      ∀ path, find? ⟨result⟩ path =
        ((Members.find? path members.reverse).bind strings?).or (find? ⟨entries⟩ path) := by
  induction members generalizing entries with
  | nil =>
    obtain rfl : entries = result := Option.some.inj h
    exact ⟨hordered, by simp, fun path => rfl⟩
  | cons member rest ih =>
    obtain ⟨name, value⟩ := member
    cases hstrings : strings? value with
    | none => simp [ofMembers?, hstrings] at h
    | some messages =>
      rw [ofMembers?, hstrings] at h
      obtain ⟨hresult, hrest, hfind⟩ := ih h (hordered.replace name messages)
      refine ⟨hresult, ?_, ?_⟩
      · rw [List.forall_mem_cons]
        exact ⟨by rw [hstrings]; rfl, hrest⟩
      · intro path
        rw [hfind, find?_replace, List.reverse_cons, Members.find?_append, Members.find?_cons]
        have hlater : ∀ v, Members.find? path rest.reverse = some v → (strings? v).isSome :=
          fun v hv => hrest _ (List.mem_reverse.mp (Members.mem_of_find? hv))
        cases hfound : Members.find? path rest.reverse with
        | some v =>
          obtain ⟨later, hv⟩ := Option.isSome_iff_exists.mp (hlater v hfound)
          simp [hv]
        | none => by_cases heq : name = path <;> simp [heq, hstrings]

theorem ofMembers?_isSome {members : Members} {entries : List (String × List String)}
    (h : ∀ member ∈ members, (strings? member.2).isSome) :
    (ofMembers? entries members).isSome := by
  induction members generalizing entries with
  | nil => rfl
  | cons member rest ih =>
    rw [List.forall_mem_cons] at h
    obtain ⟨messages, hstrings⟩ := Option.isSome_iff_exists.mp h.1
    rw [ofMembers?, hstrings]
    exact ih h.2

theorem strings?_eq_nil {value : Value} : strings? value = some [] ↔ value = .array [] := by
  cases value with
  | array items =>
    cases items with
    | nil => simp [strings?]
    | cons item rest => simp [strings?, List.mapM_cons, Option.bind_eq_some_iff]
  | _ => simp [strings?]

/-- The text of an object of lists of strings, where the last list under the path is empty. -/
def EmptyListAt (text path : String) : Prop :=
  ∃ members, Value.readVerbatim text = .ok (.object members) ∧
    (∀ member ∈ members, (strings? member.2).isSome) ∧
      Members.find? path members.reverse = some (.array [])

theorem ofText?_eq_some {text : String} {e : Errors} :
    ofText? text = some e ↔ ∃ members, Value.readVerbatim text = .ok (.object members) ∧
      ofMembers? [] members = some e.entries := by
  obtain ⟨entries⟩ := e
  unfold ofText?
  cases Value.readVerbatim text with
  | error fault => simp [Except.toOption]
  | ok value => cases value <;> simp [Except.toOption, ofValue?]

theorem ordered_of_ofText? {text : String} {e : Errors} (h : ofText? text = some e) :
    e.Ordered := by
  obtain ⟨members, -, hmembers⟩ := ofText?_eq_some.mp h
  exact (ofMembers?_eq_some hmembers ordered_empty).1

theorem mem_entries_iff {e : Errors} (h : e.Ordered) {path : String} {messages : List String} :
    (path, messages) ∈ e.entries ↔ e.find? path = some messages := by
  refine ⟨find?_of_mem h, fun hfind => ?_⟩
  obtain ⟨front, back, hentries, -⟩ := List.lookup_eq_some_iff.mp hfind
  rw [hentries]
  exact List.mem_append_right _ List.mem_cons_self

/-- A text leaves the paths bare for which its last list is empty. -/
theorem emptyListAt_iff {text path : String} :
    EmptyListAt text path ↔ ∃ e, ofText? text = some e ∧ e.Bare path := by
  constructor
  · rintro ⟨members, hread, hstrings, hlast⟩
    obtain ⟨entries, hmembers⟩ := Option.isSome_iff_exists.mp (ofMembers?_isSome hstrings)
    obtain ⟨hordered, -, hfind⟩ := ofMembers?_eq_some hmembers ordered_empty
    refine ⟨⟨entries⟩, ofText?_eq_some.mpr ⟨members, hread, hmembers⟩, ?_⟩
    apply (mem_entries_iff hordered).mpr
    rw [hfind, hlast]
    rfl
  · rintro ⟨e, hload, hbare⟩
    obtain ⟨members, hread, hmembers⟩ := ofText?_eq_some.mp hload
    obtain ⟨hordered, hstrings, hfind⟩ := ofMembers?_eq_some hmembers ordered_empty
    refine ⟨members, hread, hstrings, ?_⟩
    have hpath := (mem_entries_iff hordered).mp hbare
    rw [hfind, find?_eq_none (by simp), Option.or_none, Option.bind_eq_some_iff] at hpath
    obtain ⟨value, hlast, hvalue⟩ := hpath
    rw [hlast, strings?_eq_nil.mp hvalue]

/-! ## Bare paths -/

theorem Ordered.change {e : Errors} (h : e.Ordered) (c : Change) : (e.change c).Ordered := by
  cases c with
  | add path message => exact h.add path message
  | drain => exact ordered_empty
  | load text =>
    rw [Errors.change]
    cases hload : ofText? text with
    | none => exact h
    | some loaded => exact ordered_of_ofText? hload

theorem ordered_after (changes : List Change) : (after changes).Ordered := by
  induction changes using List.reverseRecOn with
  | nil => exact ordered_empty
  | append_singleton changes c ih =>
    rw [after_concat]
    exact ih.change c

/-- The change lets a bare path be. -/
def Change.Passes (path : String) : Change → Prop
  | .add other _ => other ≠ path
  | .drain => False
  | .load text => ofText? text = none

/-- A path is bare after a change that made it so, or let it be. -/
theorem bare_change_iff {e : Errors} (h : e.Ordered) {c : Change} {path : String} :
    (e.change c).Bare path ↔
      (∃ text, c = .load text ∧ EmptyListAt text path) ∨ e.Bare path ∧ c.Passes path := by
  cases c with
  | add other message =>
    unfold change Bare Change.Passes
    rw [mem_entries_iff (h.add other message), mem_entries_iff h, find?_add h]
    by_cases hother : other = path <;> simp [hother]
  | drain => simp [change, drain, Bare, empty, Change.Passes]
  | load text =>
    unfold change Change.Passes
    simp only [Change.load.injEq, exists_eq_left', emptyListAt_iff]
    cases ofText? text <;> simp

/-- A path is bare if a text left it so and nothing since has touched it. -/
theorem bare_after_iff (changes : List Change) (path : String) :
    (after changes).Bare path ↔ ∃ before text later, changes = before ++ .load text :: later ∧
      EmptyListAt text path ∧ ∀ c ∈ later, c.Passes path := by
  induction changes using List.reverseRecOn with
  | nil => simp [after, Bare, empty]
  | append_singleton changes c ih =>
    rw [after_concat, bare_change_iff (ordered_after changes), ih]
    constructor
    · rintro (⟨text, rfl, htext⟩ | ⟨⟨before, text, later, rfl, htext, hlater⟩, hc⟩)
      · exact ⟨changes, text, [], rfl, htext, by simp⟩
      · refine ⟨before, text, later ++ [c], by simp, htext, ?_⟩
        rw [List.forall_mem_append, List.forall_mem_singleton]
        exact ⟨hlater, hc⟩
    · rintro ⟨before, text, later, hchanges, htext, hlater⟩
      -- the text is the last change, or the last change lets the path be
      rcases later.eq_nil_or_concat with rfl | ⟨later, last, rfl⟩
      · obtain ⟨-, rfl⟩ := List.append_singleton_inj.mp hchanges
        exact Or.inl ⟨text, rfl, htext⟩
      · rw [List.concat_eq_append] at hchanges hlater
        rw [List.forall_mem_append, List.forall_mem_singleton] at hlater
        rw [← List.cons_append, ← List.append_assoc] at hchanges
        obtain ⟨rfl, rfl⟩ := List.append_singleton_inj.mp hchanges
        exact Or.inr ⟨⟨before, text, later, rfl, htext, hlater.1⟩, hlater.2⟩

/-! ## Counting paths and messages -/

/-- The number of paths is that of the paths with messages, if none is bare. -/
theorem size_eq_iff {e : Errors} (h : e.Ordered) :
    e.size = (e.paths.filter fun path => e.messagesAt path ≠ []).length ↔
      ∀ path, ¬ e.Bare path := by
  have hpaths : e.paths.length = e.size := List.length_map _
  rw [← hpaths, eq_comm, List.length_filter_eq_length_iff, paths, List.forall_mem_map]
  constructor
  · intro hmessages path hbare
    have hpath := hmessages _ hbare
    rw [messagesAt, find?_of_mem h hbare] at hpath
    simp at hpath
  · rintro hbare ⟨path, messages⟩ hentry
    rw [messagesAt, find?_of_mem h hentry, decide_eq_true_eq]
    rintro rfl
    exact hbare path hentry

theorem messageCount_eq_zero_iff {e : Errors} :
    e.messageCount = 0 ↔ ∀ entry ∈ e.entries, entry.2 = [] := by
  rw [messageCount_eq_length, List.length_eq_zero_iff, toList, List.flatMap_eq_nil_iff]
  simp only [List.map_eq_nil_iff]

/-- Nothing is stored exactly if there is no message, unless all that is stored is bare. -/
theorem isEmpty_iff_messageCount {e : Errors} :
    (e.isEmpty = true ↔ e.messageCount = 0) ↔
      (∀ path, ¬ e.Bare path) ∨ e.messageCount ≠ 0 := by
  have hempty : e.isEmpty = true → e.messageCount = 0 := by
    intro h
    rw [isEmpty_iff.mp h]
    rfl
  by_cases hcount : e.messageCount = 0
  · have hbare : e.isEmpty = true ↔ ∀ path, ¬ e.Bare path := by
      rw [isEmpty, List.isEmpty_iff, List.eq_nil_iff_forall_not_mem]
      constructor
      · exact fun hnone path => hnone (path, [])
      · rintro hbare ⟨path, messages⟩ hentry
        obtain rfl : messages = [] := messageCount_eq_zero_iff.mp hcount _ hentry
        exact hbare path hentry
    simp [hcount, hbare]
  · exact iff_of_true (iff_of_false (mt hempty hcount) hcount) (Or.inr hcount)

/-! ## What is printed -/

/-- What is printed of each message. -/
def printed (e : Errors) : List String :=
  e.toList.map fun (path, message) => "  " ++ path ++ ": " ++ message

theorem length_printed (e : Errors) : e.printed.length = e.messageCount := by
  rw [printed, List.length_map, messageCount_eq_length]

theorem text_eq_empty_iff {e : Errors} : e.text = "" ↔ e.messageCount = 0 := by
  rw [← length_printed, List.length_eq_zero_iff]
  change "\n".intercalate e.printed = "" ↔ e.printed = []
  constructor
  · intro h
    cases hprinted : e.printed with
    | nil => rfl
    | cons line rest =>
      have hline : line ∈ e.printed := hprinted ▸ List.mem_cons_self
      obtain ⟨⟨path, message⟩, -, rfl⟩ := List.mem_map.mp hline
      rw [hprinted] at h
      cases rest <;> simp [String.intercalate_cons_cons] at h
  · intro h
    rw [h]
    rfl

/-- Joining parts with a separator adds one separator less than there are parts. -/
theorem count_intercalate {α : Type} [BEq α] [LawfulBEq α] (separator : α) (parts : List (List α)) :
    ([separator].intercalate parts).count separator =
      (parts.length - 1) + parts.flatten.count separator := by
  induction parts with
  | nil => rfl
  | cons part rest ih =>
    cases rest with
    | nil => simp
    | cons next rest =>
      rw [List.intercalate_cons_cons, List.count_append, List.count_append, ih]
      simp only [List.flatten_cons, List.count_append, List.count_singleton_self,
        List.length_cons]
      omega

/-- The line breaks of the printed text are those between the messages and those within them. -/
theorem count_text (e : Errors) :
    e.text.toList.count '\n' =
      (e.messageCount - 1) + (e.printed.flatMap String.toList).count '\n' := by
  change ("\n".intercalate e.printed).toList.count '\n' = _
  rw [String.toList_intercalate, ← length_printed]
  refine (count_intercalate '\n' _).trans ?_
  rw [List.length_map, List.flatMap_def]

/-- Without a text that has an empty list no path is ever bare. -/
theorem not_bare_after {changes : List Change}
    (h : ∀ text, .load text ∈ changes → ∀ path, ¬ EmptyListAt text path) (path : String) :
    ¬ (after changes).Bare path := by
  intro hbare
  obtain ⟨before, text, later, rfl, htext, -⟩ := (bare_after_iff changes path).mp hbare
  exact h text (List.mem_append_right _ List.mem_cons_self) path htext

/-- After every run of changes a path is bare exactly if some text left it so and nothing since has
touched it.  The number of paths is that of the paths with messages exactly if no path is bare, and
a collection counts as empty exactly if it has no message, unless paths without messages are all it
has; so both are right after every run without empty lists in texts.  What is printed has one entry
for each message after every run. -/
theorem bare_paths_come_from_texts (changes : List Change) :
    (after changes).Ordered ∧
    (∀ path, (after changes).Bare path ↔ ∃ before text later,
      changes = before ++ .load text :: later ∧ EmptyListAt text path ∧
        ∀ c ∈ later, c.Passes path) ∧
    ((after changes).size =
        ((after changes).paths.filter fun path => (after changes).messagesAt path ≠ []).length ↔
      ∀ path, ¬ (after changes).Bare path) ∧
    (((after changes).isEmpty = true ↔ (after changes).messageCount = 0) ↔
      (∀ path, ¬ (after changes).Bare path) ∨ (after changes).messageCount ≠ 0) ∧
    ((∀ text, .load text ∈ changes → ∀ path, ¬ EmptyListAt text path) →
      (∀ path, ¬ (after changes).Bare path) ∧
      (after changes).size =
        ((after changes).paths.filter fun path => (after changes).messagesAt path ≠ []).length ∧
      ((after changes).isEmpty = true ↔ (after changes).messageCount = 0)) ∧
    (after changes).text = "\n".intercalate (after changes).printed ∧
    (after changes).printed.length = (after changes).messageCount ∧
    ((after changes).text = "" ↔ (after changes).messageCount = 0) ∧
    (after changes).text.toList.count '\n' = ((after changes).messageCount - 1) +
      ((after changes).printed.flatMap String.toList).count '\n' := by
  have hsize := size_eq_iff (ordered_after changes)
  refine ⟨ordered_after changes, bare_after_iff changes, hsize, isEmpty_iff_messageCount, ?_,
    rfl, length_printed _, text_eq_empty_iff, count_text _⟩
  intro htexts
  have hbare := not_bare_after htexts
  exact ⟨hbare, hsize.mpr hbare, isEmpty_iff_messageCount.mpr (Or.inl hbare)⟩

/-- A path with an empty list. -/
def silentText : String := "\x7b\"$\":[]\x7d"

/-- A path with one message. -/
def tellingText : String := "\x7b\"$\":[\"early\"]\x7d"

/-- A text with an empty list leaves its path bare, and one with messages does not. -/
theorem empty_list_leaves_path_bare :
    EmptyListAt silentText "$" ∧ (after [.load silentText]).Bare "$" ∧
      (after [.load silentText]).size ≠ ((after [.load silentText]).paths.filter fun path =>
        (after [.load silentText]).messagesAt path ≠ []).length ∧
      (after [.load silentText]).messageCount = 0 ∧
      ¬ (after [.load silentText]).isEmpty = true ∧
      (∀ path, ¬ EmptyListAt tellingText path) ∧
      (after [.load tellingText, .add "$.a" "late"]).size = 2 ∧
      ∀ path, ¬ (after [.load tellingText, .add "$.a" "late"]).Bare path := by
  have hlist : EmptyListAt silentText "$" := by
    refine ⟨[("$", .array [])], ?_, ?_, rfl⟩
    · decide +kernel
    · decide +kernel
  have hearly : ∀ path, ¬ EmptyListAt tellingText path := by
    rintro path ⟨members, hread, -, hlast⟩
    have hmembers : Value.readVerbatim tellingText =
        .ok (.object [("$", .array [.string "early"])]) := by decide +kernel
    rw [hmembers, Except.ok.injEq, Value.object.injEq] at hread
    subst hread
    obtain ⟨-, hempty⟩ := Option.ite_none_right_eq_some.mp hlast
    simp at hempty
  obtain ⟨-, hbare, hsize, hempty, -⟩ := bare_paths_come_from_texts [.load silentText]
  obtain ⟨-, -, -, -, hfilled, -⟩ :=
    bare_paths_come_from_texts [.load tellingText, .add "$.a" "late"]
  have hleft := (hbare "$").mpr ⟨[], _, [], rfl, hlist, by simp⟩
  have hcount : (after [.load silentText]).messageCount = 0 := by decide +kernel
  refine ⟨hlist, hleft, ?_, hcount, ?_, hearly, ?_, ?_⟩
  · exact fun h => hsize.mp h "$" hleft
  · intro h
    rcases hempty.mp (iff_of_true h hcount) with hnone | hne
    · exact hnone "$" hleft
    · exact hne hcount
  · decide +kernel
  · refine (hfilled ?_).1
    intro text htext
    obtain rfl : text = tellingText := by simpa using htext
    exact hearly

end Schemata.Validation.Errors
