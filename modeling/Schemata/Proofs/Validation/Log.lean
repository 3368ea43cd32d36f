import Schemata.Validation.Check
import Schemata.Validation.Errors

/-!
# Logs that agree at every path

The order in which a check meets different paths is of no consequence: `Log.Agree` compares two
logs path by path, and logs that agree are collected to the same errors (`Errors.addAll_congr`)
and are told alike by a union (`tryMembers_congr`).
-/

namespace Schemata.Validation

namespace Log

variable {α β : Type}

/-- At every path the two logs have the same entries in the same order. -/
def Agree (log log' : List (String × α)) : Prop :=
  ∀ path, log.filter (fun entry => entry.1 = path) = log'.filter fun entry => entry.1 = path

namespace Agree

variable {log log' other other' : List (String × α)}

theorem refl (log : List (String × α)) : Agree log log :=
  fun _ => rfl

theorem symm (h : Agree log log') : Agree log' log :=
  fun path => (h path).symm

theorem trans (h : Agree log log') (h' : Agree log' other) : Agree log other :=
  fun path => (h path).trans (h' path)

theorem append (h : Agree log log') (h' : Agree other other') :
    Agree (log ++ other) (log' ++ other') := by
  intro path
  rw [List.filter_append, List.filter_append, h path, h' path]

theorem of_cons {entry : String × α} (h : Agree (entry :: log) (entry :: log')) :
    Agree log log' := by
  intro path
  have hpath := h path
  by_cases hentry : entry.1 = path
  · rw [List.filter_cons_of_pos (by simpa using hentry),
      List.filter_cons_of_pos (by simpa using hentry)] at hpath
    exact (List.cons.inj hpath).2
  · rwa [List.filter_cons_of_neg (by simpa using hentry),
      List.filter_cons_of_neg (by simpa using hentry)] at hpath

theorem eq_nil (h : Agree [] log) : log = [] := by
  cases log with
  | nil => rfl
  | cons entry log =>
    have hpath := h entry.1
    rw [List.filter_cons_of_pos (by simp)] at hpath
    cases hpath

/-- The first entry of a log is in every log that agrees, behind entries at other paths only. -/
theorem exists_of_cons {entry : String × α} (h : Agree (entry :: log) log') :
    ∃ front back, log' = front ++ entry :: back ∧ (∀ e ∈ front, e.1 ≠ entry.1) ∧
      Agree log (front ++ back) := by
  have hpath := (h entry.1).symm
  rw [List.filter_cons_of_pos (by simp), List.filter_eq_cons_iff] at hpath
  obtain ⟨front, back, rfl, hfront, -, -⟩ := hpath
  have hne : ∀ e ∈ front, e.1 ≠ entry.1 := by
    intro e he
    simpa using hfront e he
  refine ⟨front, back, rfl, hne, of_cons (h.trans ?_)⟩
  intro path
  rw [List.filter_append]
  by_cases hentry : entry.1 = path
  · subst hentry
    have hnone : front.filter (fun e => e.1 = entry.1) = [] := by
      rw [List.filter_eq_nil_iff]
      intro e he
      simpa using hne e he
    simp [hnone]
  · simp [hentry]

theorem map (f : α → β) (h : Agree log log') :
    Agree (log.map fun entry => (entry.1, f entry.2))
      (log'.map fun entry => (entry.1, f entry.2)) := by
  intro path
  rw [List.filter_map, List.filter_map]
  exact congrArg _ (h path)

/-- Logs of one entry for each path agree as soon as they have the same entries. -/
theorem of_perm (hperm : log.Perm log') (hu : (log.map Prod.fst).Nodup) : Agree log log' := by
  intro path
  have hfilter := hperm.filter fun entry => entry.1 = path
  have hpairwise : (log.filter fun entry => entry.1 = path).Pairwise fun a b => a.1 ≠ b.1 :=
    (List.pairwise_map.mp hu).sublist List.filter_sublist
  have hpath : ∀ entry ∈ log.filter (fun entry => entry.1 = path), entry.1 = path := by
    intro entry hentry
    simpa using (List.mem_filter.mp hentry).2
  generalize log.filter (fun entry => entry.1 = path) = entries at hfilter hpairwise hpath
  match entries with
  | [] => exact (List.nil_perm.mp hfilter).symm
  | [entry] => exact (List.perm_singleton.mp hfilter.symm).symm
  | first :: second :: rest =>
    rw [List.pairwise_cons] at hpairwise
    have hsame : first.1 = second.1 :=
      (hpath first (by simp)).trans (hpath second (by simp)).symm
    exact absurd hsame (hpairwise.1 second List.mem_cons_self)

end Agree

/-! ## Sorting by path -/

/-- The first path of two comes first. -/
def pathOrder (a b : String × α) : Bool :=
  decide (a.1 ≤ b.1)

theorem pathOrder_trans (a b c : String × α) (hab : pathOrder a b = true)
    (hbc : pathOrder b c = true) : pathOrder a c = true := by
  rw [pathOrder, decide_eq_true_eq] at *
  exact String.le_trans hab hbc

theorem pathOrder_total (a b : String × α) : (pathOrder a b || pathOrder b a) = true := by
  simpa [pathOrder] using String.le_total a.1 b.1

/-- Sorting by path keeps the order of the entries of each path. -/
theorem agree_mergeSort (log : List (String × α)) : Agree (log.mergeSort pathOrder) log := by
  intro path
  have hpairwise : (log.filter fun entry => entry.1 = path).Pairwise
      fun a b => pathOrder a b = true := by
    rw [List.pairwise_filter]
    apply List.pairwise_of_forall
    intro a b ha hb
    rw [decide_eq_true_eq] at ha hb
    simp [pathOrder, ha, hb]
  have hsublist := (List.sublist_mergeSort pathOrder_trans pathOrder_total hpairwise
    List.filter_sublist).filter fun entry => decide (entry.1 = path)
  rw [List.filter_filter] at hsublist
  simp only [Bool.and_self] at hsublist
  refine (hsublist.eq_of_length ?_).symm
  exact ((List.mergeSort_perm log pathOrder).filter _).length_eq.symm

/-- Sorted logs agree only if they are the same. -/
theorem Agree.eq_of_sorted {log log' : List (String × α)} (h : Agree log log')
    (hsorted : log.Pairwise fun a b => pathOrder a b = true)
    (hsorted' : log'.Pairwise fun a b => pathOrder a b = true) : log = log' := by
  induction log generalizing log' with
  | nil => exact h.eq_nil.symm
  | cons entry log ih =>
    obtain ⟨front, back, rfl, hfront, hrest⟩ := h.exists_of_cons
    rw [List.pairwise_cons] at hsorted
    cases front with
    | nil =>
      rw [List.nil_append, List.pairwise_cons] at hsorted'
      rw [ih hrest hsorted.2 hsorted'.2]
      rfl
    | cons first front =>
      -- The first entry of the other log would have a path before and behind that of `entry`.
      have hbefore : first.1 ≤ entry.1 := by
        have hall := (List.pairwise_cons.mp hsorted').1 entry (by simp)
        simpa [pathOrder] using hall
      obtain ⟨other, hother, hpath⟩ : ∃ other ∈ log, other.1 = first.1 := by
        have hfilter := hrest first.1
        rw [List.cons_append, List.filter_cons_of_pos (by simp)] at hfilter
        have hmem : first ∈ log.filter fun e => e.1 = first.1 := hfilter ▸ List.mem_cons_self
        exact ⟨first, (List.mem_filter.mp hmem).1, rfl⟩
      have hbehind : entry.1 ≤ first.1 := by
        have hall := hsorted.1 other hother
        rw [pathOrder, decide_eq_true_eq, hpath] at hall
        exact hall
      exact absurd (String.le_antisymm hbefore hbehind) (hfront first List.mem_cons_self)

theorem Agree.mergeSort_eq {log log' : List (String × α)} (h : Agree log log') :
    log.mergeSort pathOrder = log'.mergeSort pathOrder := by
  apply Agree.eq_of_sorted
  · exact ((agree_mergeSort log).trans h).trans (agree_mergeSort log').symm
  · exact List.pairwise_mergeSort pathOrder_trans pathOrder_total log
  · exact List.pairwise_mergeSort pathOrder_trans pathOrder_total log'

end Log

/-! ## Collecting errors -/

namespace Errors

theorem insertMessage_comm_of_lt {path other message message' : String} (h : path < other)
    (entries : List (String × List String)) :
    insertMessage other message' (insertMessage path message entries) =
      insertMessage path message (insertMessage other message' entries) := by
  have hne : path ≠ other := fun heq => String.lt_irrefl other (heq ▸ h)
  have hnlt : ¬ other < path := String.lt_asymm h
  induction entries with
  | nil => simp [insertMessage, h, hne, hnlt, hne.symm]
  | cons entry rest ih =>
    obtain ⟨place, messages⟩ := entry
    by_cases hplace : place = path
    · subst hplace
      simp [insertMessage, hne, hnlt]
    · by_cases hbefore : path < place
      · by_cases hother : place = other
        · subst hother
          simp [insertMessage, h, hne, hnlt, hne.symm]
        · by_cases hbehind : other < place
          · simp [insertMessage, h, hne, hnlt, hne.symm, hplace, hother, hbefore, hbehind]
          · simp [insertMessage, hne, hnlt, hplace, hother, hbefore, hbehind]
      · have hother : place ≠ other := by
          rintro rfl
          exact hbefore h
        have hbehind : ¬ other < place := fun hlt => hbefore (String.lt_trans h hlt)
        simp [insertMessage, hplace, hother, hbefore, hbehind, ih]

/-- Messages at different paths may be reported in either order. -/
theorem add_comm (e : Errors) {path other : String} (h : path ≠ other)
    (message message' : String) :
    (e.add path message).add other message' = (e.add other message').add path message := by
  unfold add
  rw [Errors.mk.injEq]
  rcases String.le_total path other with hle | hle
  · exact insertMessage_comm_of_lt (Std.lt_of_le_of_ne hle h) _
  · exact (insertMessage_comm_of_lt (Std.lt_of_le_of_ne hle h.symm) _).symm

theorem addAll_cons (e : Errors) (entry : String × String) (log : List (String × String)) :
    e.addAll (entry :: log) = (e.add entry.1 entry.2).addAll log :=
  rfl

/-- A message may be reported ahead of messages at other paths. -/
theorem addAll_middle (e : Errors) {front : List (String × String)} {entry : String × String}
    (hfront : ∀ other ∈ front, other.1 ≠ entry.1) (back : List (String × String)) :
    e.addAll (front ++ entry :: back) = (e.add entry.1 entry.2).addAll (front ++ back) := by
  induction front generalizing e with
  | nil => rfl
  | cons first front ih =>
    rw [List.forall_mem_cons] at hfront
    rw [List.cons_append, List.cons_append, addAll_cons, addAll_cons, ih _ hfront.2,
      add_comm e hfront.1]

/-- Logs that agree at every path are collected to the same errors. -/
theorem addAll_congr (e : Errors) {log log' : List (String × String)} (h : Log.Agree log log') :
    e.addAll log = e.addAll log' := by
  induction log generalizing e log' with
  | nil => rw [h.eq_nil]
  | cons entry log ih =>
    obtain ⟨front, back, rfl, hfront, hrest⟩ := h.exists_of_cons
    rw [addAll_middle e hfront, addAll_cons]
    exact ih _ hrest

end Errors

theorem Log.Agree.messages {log log' : Log} (h : Log.Agree log log') :
    Log.Agree log.messages log'.messages :=
  h.map Violation.message

/-! ## Unions -/

section Unions

variable {trial trial' : SchemaType → Log} {path : String}

theorem memberLog_congr {type : SchemaType} {log log' : Log} (h : Log.Agree log log') :
    memberLog type path log = memberLog type path log' :=
  congrArg (List.map _) h.mergeSort_eq

/-- A union tells nothing of the order in which its members met different paths. -/
theorem tryMembers_congr {types : List SchemaType}
    (h : ∀ type ∈ types, Log.Agree (trial type) (trial' type)) :
    tryMembers trial path types = tryMembers trial' path types := by
  induction types with
  | nil => rfl
  | cons type rest ih =>
    rw [List.forall_mem_cons] at h
    unfold tryMembers
    rw [ih h.2]
    have htype := h.1
    generalize trial type = log at htype
    generalize trial' type = log' at htype
    cases log with
    | nil => rw [htype.eq_nil]
    | cons entry log =>
      cases log' with
      | nil => exact absurd htype.symm.eq_nil (by simp)
      | cons entry' log' =>
        dsimp only
        rw [memberLog_congr htype]

end Unions
end Schemata.Validation
