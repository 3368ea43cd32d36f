import Schemata.Proofs.Validation.Log

/-!
# Collections of messages

A collection keeps its paths in ascending order (`Errors.Ordered`), so it is determined by what it
answers under each path.  A report replaces the messages of its path by a longer list
(`Ordered.add_eq_replace`).  Collecting a log appends, at every path, what the log has there
(`find?_addAll`); and the messages of a collected log are those of the log, sorted by path
(`toList_addAll_empty`).
-/

namespace Schemata.Validation

namespace Log

variable {α : Type} {path other : String}

/-- What a log has at a path, in the order of the log. -/
def entriesAt (log : List (String × α)) (path : String) : List α :=
  (log.filter fun entry => entry.1 = path).map (·.2)

theorem mem_entriesAt {log : List (String × α)} {a : α} :
    a ∈ entriesAt log path ↔ (path, a) ∈ log := by
  simp [entriesAt]

theorem entriesAt_map_self (entries : List α) :
    entriesAt (entries.map fun a => (path, a)) path = entries := by
  simp [entriesAt, List.filter_map, Function.comp_def]

theorem entriesAt_map_of_ne (h : path ≠ other) (entries : List α) :
    entriesAt (entries.map fun a => (path, a)) other = [] := by
  simp [entriesAt, h]

theorem entriesAt_append (log log' : List (String × α)) :
    entriesAt (log ++ log') path = entriesAt log path ++ entriesAt log' path := by
  rw [entriesAt, List.filter_append, List.map_append]
  rfl

end Log

namespace Errors

/-! ## Counting messages -/

/-- The count goes through the messages of all paths. -/
theorem messageCount_eq_length (e : Errors) : e.messageCount = e.toList.length := by
  have hfold : ∀ (entries : List (String × List String)) (n : Nat),
      entries.foldl (fun n entry => n + entry.2.length) n =
        n + (toList ⟨entries⟩).length := by
    intro entries
    induction entries with
    | nil => exact fun n => rfl
    | cons entry rest ih =>
      intro n
      have hcons : toList ⟨entry :: rest⟩ =
          (entry.2.map fun message => (entry.1, message)) ++ toList ⟨rest⟩ := rfl
      rw [List.foldl_cons, ih, hcons, List.length_append, List.length_map, Nat.add_assoc]
  exact (hfold e.entries 0).trans (Nat.zero_add _)

theorem messageCount_add (e : Errors) (path message : String) :
    (e.add path message).messageCount = e.messageCount + 1 := by
  rw [messageCount_eq_length, messageCount_eq_length, toList, toList, add]
  generalize e.entries = entries
  induction entries with
  | nil => rfl
  | cons entry rest ih =>
    dsimp only at ih ⊢
    unfold insertMessage
    split
    · simp only [List.flatMap_cons, List.length_append, List.length_map, List.length_singleton]
      omega
    · split
      · simp only [List.flatMap_cons, List.length_append, List.length_map, List.length_singleton]
        omega
      · simp only [List.flatMap_cons, List.length_append, List.length_map, ih]
        omega

theorem messageCount_addAll (e : Errors) (log : List (String × String)) :
    (e.addAll log).messageCount = e.messageCount + log.length := by
  induction log generalizing e with
  | nil => rfl
  | cons entry rest ih =>
    have hcount := ih (e.add entry.1 entry.2)
    rw [messageCount_add] at hcount
    rw [List.length_cons]
    exact hcount.trans (by omega)

theorem addAll_eq_self_iff {e : Errors} {log : List (String × String)} :
    e.addAll log = e ↔ log = [] := by
  constructor
  · intro h
    have hcount := messageCount_addAll e log
    rw [h] at hcount
    exact List.length_eq_zero_iff.mp (by omega)
  · rintro rfl
    rfl

theorem isEmpty_iff {e : Errors} : e.isEmpty = true ↔ e = empty := by
  obtain ⟨entries⟩ := e
  cases entries <;> simp [isEmpty, empty]

/-! ## Paths in ascending order -/

/-- The paths ascend, so each of them occurs once. -/
def Ordered (e : Errors) : Prop :=
  e.entries.Pairwise fun a b => a.1 < b.1

theorem ordered_empty : empty.Ordered :=
  .nil

theorem Ordered.cons {entry first : String × List String} {rest : List (String × List String)}
    (h : Ordered ⟨first :: rest⟩) (hbefore : entry.1 < first.1) :
    Ordered ⟨entry :: first :: rest⟩ := by
  refine List.Pairwise.cons (fun other hother => ?_) h
  rcases List.mem_cons.mp hother with rfl | hrest
  · exact hbefore
  · exact String.lt_trans hbefore ((List.pairwise_cons.mp h).1 other hrest)

theorem mem_replace {path : String} {messages : List String} {entries : List (String × List String)}
    {entry : String × List String} (h : entry ∈ replace path messages entries) :
    entry = (path, messages) ∨ entry ∈ entries := by
  induction entries with
  | nil => exact Or.inl (List.mem_singleton.mp h)
  | cons first rest ih =>
    obtain ⟨other, old⟩ := first
    unfold replace at h
    split at h
    · case isTrue heq =>
      subst heq
      exact (List.mem_cons.mp h).imp_right (List.mem_cons_of_mem _)
    · split at h
      · exact List.mem_cons.mp h
      · rcases List.mem_cons.mp h with rfl | hrest
        · exact Or.inr List.mem_cons_self
        · exact (ih hrest).imp_right (List.mem_cons_of_mem _)

theorem Ordered.replace {entries : List (String × List String)} (h : Ordered ⟨entries⟩)
    (path : String) (messages : List String) : Ordered ⟨replace path messages entries⟩ := by
  induction entries with
  | nil => exact List.pairwise_singleton _ _
  | cons first rest ih =>
    obtain ⟨other, old⟩ := first
    obtain ⟨hfirst, hrest⟩ := List.pairwise_cons.mp h
    unfold Errors.replace
    split
    · exact List.Pairwise.cons hfirst hrest
    · case isFalse hne =>
      split
      · case isTrue hbefore => exact h.cons hbefore
      · case isFalse hnot =>
        refine List.Pairwise.cons (fun entry hentry => ?_) (ih hrest)
        rcases mem_replace hentry with rfl | hold
        · exact Std.lt_of_le_of_ne (String.not_lt.mp hnot) hne
        · exact hfirst entry hold

/-! ## Messages by path -/

/-- The messages of a path, none if the path is absent. -/
def messagesAt (e : Errors) (path : String) : List String :=
  (e.find? path).getD []

theorem find?_cons (entry : String × List String) (rest : List (String × List String))
    (path : String) :
    find? ⟨entry :: rest⟩ path = if entry.1 = path then some entry.2 else find? ⟨rest⟩ path := by
  unfold find?
  rw [List.lookup_cons]
  by_cases h : entry.1 = path
  · simp [h]
  · have hbeq : (path == entry.1) = false := by simpa using Ne.symm h
    simp [h, hbeq]

theorem find?_replace {entries : List (String × List String)} (path : String)
    (messages : List String) (place : String) :
    find? ⟨replace path messages entries⟩ place =
      if path = place then some messages else find? ⟨entries⟩ place := by
  induction entries with
  | nil => exact find?_cons ..
  | cons first rest ih =>
    obtain ⟨other, old⟩ := first
    unfold replace
    split
    · case isTrue heq =>
      subst heq
      rw [find?_cons, find?_cons]
      split <;> rfl
    · case isFalse hne =>
      split
      · rw [find?_cons]
      · rw [find?_cons, ih, find?_cons]
        by_cases hplace : other = place
        · rw [if_pos hplace, if_pos hplace, if_neg fun heq => hne (hplace.trans heq.symm)]
        · rw [if_neg hplace, if_neg hplace]

theorem find?_eq_none {entries : List (String × List String)} {path : String}
    (h : ∀ entry ∈ entries, entry.1 ≠ path) : find? ⟨entries⟩ path = none := by
  induction entries with
  | nil => rfl
  | cons entry rest ih =>
    rw [List.forall_mem_cons] at h
    rw [find?_cons, if_neg h.1, ih h.2]

theorem find?_of_mem {e : Errors} (h : e.Ordered) {path : String} {messages : List String}
    (hmem : (path, messages) ∈ e.entries) : e.find? path = some messages := by
  obtain ⟨entries⟩ := e
  unfold Ordered at h
  dsimp only at h hmem
  induction entries with
  | nil => simp at hmem
  | cons entry rest ih =>
    rw [List.pairwise_cons] at h
    rw [find?_cons]
    rcases List.mem_cons.mp hmem with rfl | hrest
    · rw [if_pos rfl]
    · have hne : entry.1 ≠ path := fun heq =>
        String.lt_irrefl path (by simpa [heq] using h.1 _ hrest)
      rw [if_neg hne]
      exact ih h.2 hrest

/-! ## Reports -/

/-- A report replaces the messages of its path by a list that is longer by one. -/
theorem Ordered.add_eq_replace {e : Errors} (h : e.Ordered) (path message : String) :
    e.add path message = ⟨Errors.replace path (e.messagesAt path ++ [message]) e.entries⟩ := by
  obtain ⟨entries⟩ := e
  unfold Ordered at h
  unfold add messagesAt
  dsimp only at h ⊢
  rw [mk.injEq]
  induction entries with
  | nil => rfl
  | cons first rest ih =>
    obtain ⟨other, messages⟩ := first
    rw [List.pairwise_cons] at h
    rw [insertMessage, Errors.replace, find?_cons]
    dsimp only
    split
    · rfl
    · case isFalse hne =>
      split
      · case isTrue hbefore =>
        -- the path lies ahead of all others, so it is none of them
        have hnone : find? ⟨rest⟩ path = none := by
          refine find?_eq_none fun entry hentry heq => String.lt_irrefl path ?_
          exact String.lt_trans hbefore (heq ▸ h.1 entry hentry)
        rw [hnone]
        rfl
      · rw [ih h.2]

theorem Ordered.add {e : Errors} (h : e.Ordered) (path message : String) :
    (e.add path message).Ordered :=
  h.add_eq_replace path message ▸ Ordered.replace h path _

theorem Ordered.addAll {e : Errors} (h : e.Ordered) (log : List (String × String)) :
    (e.addAll log).Ordered := by
  induction log generalizing e with
  | nil => exact h
  | cons entry rest ih => exact ih (h.add entry.1 entry.2)

theorem find?_add {e : Errors} (h : e.Ordered) (path message place : String) :
    (e.add path message).find? place =
      if path = place then some (e.messagesAt place ++ [message]) else e.find? place := by
  rw [h.add_eq_replace, find?_replace]
  by_cases heq : path = place
  · rw [if_pos heq, if_pos heq, heq]
  · rw [if_neg heq, if_neg heq]

theorem messagesAt_add {e : Errors} (h : e.Ordered) (path message place : String) :
    (e.add path message).messagesAt place =
      e.messagesAt place ++ if path = place then [message] else [] := by
  rw [messagesAt, find?_add h]
  split
  · rfl
  · exact (List.append_nil _).symm

theorem messagesAt_addAll {e : Errors} (h : e.Ordered) (log : List (String × String))
    (place : String) :
    (e.addAll log).messagesAt place = e.messagesAt place ++ Log.entriesAt log place := by
  induction log generalizing e with
  | nil => exact (List.append_nil _).symm
  | cons entry rest ih =>
    rw [addAll_cons, ih (h.add _ _), messagesAt_add h, List.append_assoc]
    congr 1
    unfold Log.entriesAt
    by_cases hplace : entry.1 = place <;> simp [hplace]

/-- Collecting a log appends to the messages of each path what the log has there. -/
theorem find?_addAll {e : Errors} (h : e.Ordered) (log : List (String × String))
    (place : String) :
    (e.addAll log).find? place = Option.merge (· ++ ·) (e.find? place)
      (if Log.entriesAt log place = [] then none else some (Log.entriesAt log place)) := by
  have hpresent : (e.addAll log).find? place = none ↔
      e.find? place = none ∧ Log.entriesAt log place = [] := by
    induction log generalizing e with
    | nil => simp [addAll, Log.entriesAt]
    | cons entry rest ih =>
      rw [addAll_cons, ih (h.add _ _), find?_add h, Log.entriesAt, Log.entriesAt]
      by_cases hplace : entry.1 = place <;> simp [hplace]
  have hmessages := messagesAt_addAll h log place
  unfold messagesAt at hmessages
  cases hafter : (e.addAll log).find? place with
  | none =>
    obtain ⟨hnone, hempty⟩ := hpresent.mp hafter
    simp [hnone, hempty]
  | some messages =>
    rw [hafter, Option.getD_some] at hmessages
    rw [hmessages]
    cases hbefore : e.find? place with
    | none =>
      have hne : Log.entriesAt log place ≠ [] := fun hempty => by
        simp [hpresent.mpr ⟨hbefore, hempty⟩] at hafter
      simp [hne]
    | some old => by_cases hempty : Log.entriesAt log place = [] <;> simp [hempty]

theorem find?_addAll_empty (log : List (String × String)) (place : String) :
    (empty.addAll log).find? place =
      if Log.entriesAt log place = [] then none else some (Log.entriesAt log place) :=
  (find?_addAll ordered_empty log place).trans Option.merge_none_left

/-! ## Messages in order -/

theorem filter_toList {e : Errors} (h : e.Ordered) (path : String) :
    e.toList.filter (fun entry => entry.1 = path) =
      (e.messagesAt path).map fun message => (path, message) := by
  obtain ⟨entries⟩ := e
  unfold Ordered at h
  unfold toList messagesAt
  dsimp only at h ⊢
  induction entries with
  | nil => rfl
  | cons entry rest ih =>
    rw [List.pairwise_cons] at h
    rw [List.flatMap_cons, List.filter_append, ih h.2, find?_cons]
    by_cases heq : entry.1 = path
    · have hrest : find? ⟨rest⟩ path = none :=
        find?_eq_none fun other hother hsame =>
          String.lt_irrefl path (by simpa [heq, hsame] using h.1 other hother)
      simp [heq, hrest, List.filter_eq_self]
    · simp [heq]

theorem mem_toList_iff {e : Errors} (h : e.Ordered) {path message : String} :
    (path, message) ∈ e.toList ↔ message ∈ e.messagesAt path := by
  have hfilter : (path, message) ∈ e.toList.filter (fun entry => entry.1 = path) ↔
      (path, message) ∈ (e.messagesAt path).map fun message => (path, message) := by
    rw [filter_toList h]
  simpa using hfilter

theorem pairwise_toList {e : Errors} (h : e.Ordered) :
    e.toList.Pairwise fun a b => Log.pathOrder a b = true := by
  unfold toList
  rw [List.pairwise_flatMap]
  constructor
  · intro entry _
    rw [List.pairwise_map]
    exact List.pairwise_of_forall fun _ _ => by simp [Log.pathOrder]
  · refine List.Pairwise.imp (fun {a b} hlt => ?_) h
    have hle : a.1 ≤ b.1 := Std.le_of_lt hlt
    simp [Log.pathOrder, hle]

/-- The messages of a collected log are those of the log, sorted by path. -/
theorem toList_addAll_empty (log : List (String × String)) :
    (empty.addAll log).toList = log.mergeSort Log.pathOrder := by
  have hordered : (empty.addAll log).Ordered := ordered_empty.addAll log
  apply Log.Agree.eq_of_sorted
  · intro path
    rw [Log.agree_mergeSort log path, filter_toList hordered, messagesAt_addAll ordered_empty]
    change ((log.filter _).map _).map _ = _
    rw [List.map_map]
    refine (List.map_congr_left fun entry hentry => ?_).trans (List.map_id _)
    have hpath : entry.1 = path := by simpa using (List.mem_filter.mp hentry).2
    exact Prod.ext hpath.symm rfl
  · exact pairwise_toList hordered
  · exact List.pairwise_mergeSort Log.pathOrder_trans Log.pathOrder_total log

end Errors
end Schemata.Validation
