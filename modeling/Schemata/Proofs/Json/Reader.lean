import Schemata.Json.Reader
import Schemata.Proofs.Json.Tree

/-!
# What readers answer

`ReadsValue` says how a value is read from what is one level below.  What holds of all that is read
is shown by one induction over the reader, `readValue_induction`, which can carry a property of the
unread text along.  A value that was read is nested no more deeply than its reader admits, and once
duplicates are merged every object in it holds each key once.
-/

namespace Schemata

section MapError

variable {ε ε' α : Type} {f : ε → ε'} {a : α}

@[simp]
theorem mapError_ok : (Except.ok a).mapError f = .ok a := rfl

@[simp]
theorem mapError_error {e : ε} : (Except.error e : Except ε α).mapError f = .error (f e) := rfl

/-- Replacing the error keeps an answer. -/
theorem mapError_eq_ok {x : Except ε α} : x.mapError f = .ok a ↔ x = .ok a := by
  cases x with
  | ok b => rw [mapError_ok, Except.ok.injEq, Except.ok.injEq]
  | error e =>
    rw [mapError_error]
    simp

/-- An error after the replacement comes from one before it. -/
theorem mapError_eq_error {x : Except ε α} {e' : ε'} :
    x.mapError f = .error e' ↔ ∃ e, x = .error e ∧ f e = e' := by
  cases x <;> simp

end MapError

namespace Json

theorem Reading.andThen_eq_ok {α β : Type} {r : Reading α} {next : α → List Char → Reading β}
    {b : β × List Char} :
    r.andThen next = .ok b ↔ ∃ a rest, r = .ok (a, rest) ∧ next a rest = .ok b := by
  cases r with
  | ok p =>
    obtain ⟨a, rest⟩ := p
    constructor
    · intro h
      exact ⟨a, rest, rfl, h⟩
    · rintro ⟨a', rest', heq, h⟩
      simp only [Except.ok.injEq, Prod.mk.injEq] at heq
      obtain ⟨rfl, rfl⟩ := heq
      exact h
  | error s => simp [Reading.andThen]

theorem Reading.map_eq_ok {α β : Type} {r : Reading α} {f : α → β} {b : β} {rest : List Char} :
    r.map f = .ok (b, rest) ↔ ∃ a, r = .ok (a, rest) ∧ f a = b := by
  rw [Reading.map, Reading.andThen_eq_ok]
  simp

@[simp] theorem stopAt_ne_ok {α : Type} {cause : Cause} {text : List Char} {a : α} :
    stopAt cause text ≠ .ok a :=
  nofun

@[simp] theorem stopBefore_ne_ok {α : Type} {cause : Cause} {text : List Char} {a : α} :
    stopBefore cause text ≠ .ok a :=
  nofun

/-! ## One element -/

/-- Behind an element stands a comma, and then the text of a further element. -/
def Continues (close : Char) (after next : List Char) : Prop :=
  ∃ rest, skipBlanks after = ',' :: rest ∧ skipBlanks rest = next ∧ next ≠ [] ∧
    next.head? ≠ some close

section Elements

variable {item : List Char → Reading Value} {bound text : List Char} {b : Char}

/-- An array ends behind an item, or it continues with the next one. -/
theorem readItems_cons_eq_ok {done : List Value} {r : List Value × List Char} :
    readItems item (b :: bound) done text = .ok r ↔
      ∃ v after, item text = .ok (v, after) ∧
        ((∃ rest, skipBlanks after = ']' :: rest ∧ ((v :: done).reverse, rest) = r) ∨
          ∃ next, Continues ']' after next ∧ readItems item bound (v :: done) next = .ok r) := by
  rw [readItems, Reading.andThen_eq_ok]
  refine exists_congr fun v => exists_congr fun after => and_congr_right fun _ => ?_
  unfold Continues
  cases skipBlanks after with
  | nil => simp
  | cons c rest =>
    by_cases hclose : c = ']'
    · simp [hclose]
    · by_cases hcomma : c = ','
      · subst hcomma
        cases hrest : skipBlanks rest with
        | nil => simp [hrest]
        | cons d tail =>
          by_cases hend : d = ']'
          · simp [hrest, hend]
          · simp [hrest, hend, and_assoc]
      · simp [hclose, hcomma]

/-- An object ends behind a member, or it continues with the next one. -/
theorem readMembers_cons_eq_ok {done : List (String × Value)}
    {r : List (String × Value) × List Char} :
    readMembers item (b :: bound) done text = .ok r ↔
      ∃ key afterKey, readKey text = .ok (key, afterKey) ∧
        ∃ v after, item afterKey = .ok (v, after) ∧
          ((∃ rest, skipBlanks after = '\x7d' :: rest ∧ (((key, v) :: done).reverse, rest) = r) ∨
            ∃ next, Continues '\x7d' after next ∧
              readMembers item bound ((key, v) :: done) next = .ok r) := by
  rw [readMembers, Reading.andThen_eq_ok]
  refine exists_congr fun key => exists_congr fun afterKey => and_congr_right fun _ => ?_
  rw [Reading.andThen_eq_ok]
  refine exists_congr fun v => exists_congr fun after => and_congr_right fun _ => ?_
  unfold Continues
  cases skipBlanks after with
  | nil => simp
  | cons c rest =>
    by_cases hclose : c = '\x7d'
    · simp [hclose]
    · by_cases hcomma : c = ','
      · subst hcomma
        cases hrest : skipBlanks rest with
        | nil => simp [hrest]
        | cons d tail =>
          by_cases hend : d = '\x7d'
          · simp [hrest, hend]
          · simp [hrest, hend, and_assoc]
      · simp [hclose, hcomma]

end Elements

/-! ## One value -/

/-- How a value is read: as a scalar, or as an array or an object, which is empty or has elements
with one level less. -/
inductive ReadsValue : Nat → List Char → Value → List Char → Prop
  | scalar {depth : Nat} {c : Char} {text tail rest : List Char} {v : Value} :
      skipBlanks text = c :: tail → c ≠ '[' → c ≠ '\x7b' → readScalar c tail = .ok (v, rest) →
        ReadsValue depth text v rest
  | emptyArray {depth : Nat} {text tail rest : List Char} :
      skipBlanks text = '[' :: tail → skipBlanks tail = ']' :: rest →
        ReadsValue (depth + 1) text (.array []) rest
  | array {depth : Nat} {text tail rest : List Char} {items : List Value} :
      skipBlanks text = '[' :: tail → (skipBlanks tail).head? ≠ some ']' →
        readItems (readValue depth) (skipBlanks tail) [] (skipBlanks tail) = .ok (items, rest) →
          ReadsValue (depth + 1) text (.array items) rest
  | emptyObject {depth : Nat} {text tail rest : List Char} :
      skipBlanks text = '\x7b' :: tail → skipBlanks tail = '\x7d' :: rest →
        ReadsValue (depth + 1) text (.object []) rest
  | object {depth : Nat} {text tail rest : List Char} {members : List (String × Value)} :
      skipBlanks text = '\x7b' :: tail → (skipBlanks tail).head? ≠ some '\x7d' →
        readMembers (readValue depth) (skipBlanks tail) [] (skipBlanks tail) =
            .ok (members, rest) →
          ReadsValue (depth + 1) text (.object members) rest

theorem readsValue_of_readValue {depth : Nat} {text rest : List Char} {v : Value}
    (h : readValue depth text = .ok (v, rest)) : ReadsValue depth text v rest := by
  have hhead : ∀ {close : Char} {next : List Char},
      (∀ rest, next = close :: rest → False) → next.head? ≠ some close := by
    intro close next hnext hhead
    obtain ⟨rest, heq⟩ := List.head?_eq_some_iff.mp hhead
    exact hnext rest heq
  unfold readValue at h
  split at h
  · exact absurd h stopAt_ne_ok
  · case h_2 c tail htext =>
    split at h
    · case isTrue hbracket =>
      subst hbracket
      cases depth with
      | zero => exact absurd h stopAt_ne_ok
      | succ depth =>
        dsimp only at h
        split at h
        · exact absurd h stopAt_ne_ok
        · case h_2 hclose =>
          obtain ⟨rfl, rfl⟩ := Prod.mk.inj (Except.ok.inj h)
          exact .emptyArray htext hclose
        · case h_3 hclose =>
          obtain ⟨items, hitems, rfl⟩ := Reading.map_eq_ok.mp h
          exact .array htext (hhead hclose) hitems
    · case isFalse hbracket =>
      split at h
      · case isTrue hbrace =>
        subst hbrace
        cases depth with
        | zero => exact absurd h stopAt_ne_ok
        | succ depth =>
          dsimp only at h
          split at h
          · exact absurd h stopAt_ne_ok
          · case h_2 hclose =>
            obtain ⟨rfl, rfl⟩ := Prod.mk.inj (Except.ok.inj h)
            exact .emptyObject htext hclose
          · case h_3 hclose =>
            obtain ⟨members, hmembers, rfl⟩ := Reading.map_eq_ok.mp h
            exact .object htext (hhead hclose) hmembers
      · case isFalse hbrace => exact .scalar htext hbracket hbrace h

theorem ReadsValue.readValue_eq {depth : Nat} {text rest : List Char} {v : Value}
    (h : ReadsValue depth text v rest) : readValue depth text = .ok (v, rest) := by
  cases h with
  | scalar htext hbracket hbrace hread =>
    unfold readValue
    simp only [htext, if_neg hbracket, if_neg hbrace, hread]
  | emptyArray htext hclose => simp [readValue, htext, hclose]
  | emptyObject htext hclose => simp [readValue, htext, hclose]
  | array htext hclose hitems =>
    simp only [readValue, htext, if_true]
    split
    · case h_1 heq => exact absurd (heq ▸ hitems) stopAt_ne_ok
    · case h_2 heq => simp [heq] at hclose
    · rw [hitems]
      rfl
  | object htext hclose hmembers =>
    simp only [readValue, htext, if_neg (by decide : '\x7b' ≠ '['), if_true]
    split
    · case h_1 heq => exact absurd (heq ▸ hmembers) stopAt_ne_ok
    · case h_2 heq => simp [heq] at hclose
    · rw [hmembers]
      rfl

/-! ## What holds of all that is read -/

/-- The property of unread texts outlives the blanks, marks and keys in front of them. -/
structure Outlives (good : List Char → Prop) : Prop where
  blanks {text : List Char} : good text → good (skipBlanks text)
  mark {c : Char} {text : List Char} :
    c ∈ ['[', ']', '\x7b', '\x7d', ',', ':'] → good (c :: text) → good text
  string {text rest : List Char} {s : String} :
    readString text = .ok (s, rest) → good ('"' :: text) → good rest

theorem outlives_true : Outlives fun _ => True :=
  ⟨id, fun _ => id, fun _ => id⟩

theorem Outlives.continues {good : List Char → Prop} (hgood : Outlives good) {close : Char}
    {after next : List Char} (h : Continues close after next) (hafter : good after) :
    good next := by
  obtain ⟨rest, hcomma, rfl, -⟩ := h
  exact hgood.blanks (hgood.mark (by simp) (hcomma ▸ hgood.blanks hafter))

section Containers

variable {good : List Char → Prop} {item : List Char → Reading Value} {p : Value → Prop}
  {bound text rest : List Char}

/-- Whatever holds of every item that may be read holds of all items of an array. -/
theorem forall_mem_of_readItems (hgood : Outlives good)
    (hitem : ∀ text v rest, good text → item text = .ok (v, rest) → p v ∧ good rest)
    {done items : List Value} (hdone : ∀ v ∈ done, p v) (htext : good text)
    (h : readItems item bound done text = .ok (items, rest)) :
    (∀ v ∈ items, p v) ∧ good rest := by
  induction bound generalizing done text with
  | nil => exact absurd h stopAt_ne_ok
  | cons _ bound ih =>
    obtain ⟨v, after, hread, hnext⟩ := readItems_cons_eq_ok.mp h
    obtain ⟨hv, hafter⟩ := hitem _ _ _ htext hread
    have hmore : ∀ w ∈ v :: done, p w := List.forall_mem_cons.mpr ⟨hv, hdone⟩
    rcases hnext with ⟨tail, hclose, hr⟩ | ⟨next, hcontinues, hloop⟩
    · obtain ⟨rfl, rfl⟩ := Prod.mk.inj hr
      exact ⟨fun w hw => hmore w (List.mem_reverse.mp hw),
        hgood.mark (by simp) (hclose ▸ hgood.blanks hafter)⟩
    · exact ih hmore (hgood.continues hcontinues hafter) hloop

theorem good_of_readKey (hgood : Outlives good) {key : String} (htext : good text)
    (h : readKey text = .ok (key, rest)) : good rest := by
  unfold readKey at h
  split at h
  · obtain ⟨s, after, hread, h⟩ := Reading.andThen_eq_ok.mp h
    have hnext := hgood.blanks (hgood.string hread htext)
    split at h
    · exact absurd h stopAt_ne_ok
    · case h_2 heq =>
      simp only [Except.ok.injEq, Prod.mk.injEq] at h
      rw [heq] at hnext
      exact h.2 ▸ hgood.mark (by simp) hnext
    · exact absurd h stopAt_ne_ok
  · exact absurd h stopAt_ne_ok

/-- Whatever holds of every value that may be read holds of all members of an object. -/
theorem forall_mem_of_readMembers (hgood : Outlives good)
    (hitem : ∀ text v rest, good text → item text = .ok (v, rest) → p v ∧ good rest)
    {done members : List (String × Value)} (hdone : ∀ entry ∈ done, p entry.2)
    (htext : good text) (h : readMembers item bound done text = .ok (members, rest)) :
    (∀ entry ∈ members, p entry.2) ∧ good rest := by
  induction bound generalizing done text with
  | nil => exact absurd h stopAt_ne_ok
  | cons _ bound ih =>
    obtain ⟨key, afterKey, hkey, v, after, hread, hnext⟩ := readMembers_cons_eq_ok.mp h
    obtain ⟨hv, hafter⟩ := hitem _ _ _ (good_of_readKey hgood htext hkey) hread
    have hmore : ∀ entry ∈ (key, v) :: done, p entry.2 := List.forall_mem_cons.mpr ⟨hv, hdone⟩
    rcases hnext with ⟨tail, hclose, hr⟩ | ⟨next, hcontinues, hloop⟩
    · obtain ⟨rfl, rfl⟩ := Prod.mk.inj hr
      exact ⟨fun entry hentry => hmore entry (List.mem_reverse.mp hentry),
        hgood.mark (by simp) (hclose ▸ hgood.blanks hafter)⟩
    · exact ih hmore (hgood.continues hcontinues hafter) hloop

end Containers

/-- Whatever holds of scalars, and of arrays and objects if it holds one level below, holds of all
that a reader answers. -/
theorem readValue_induction {good : List Char → Prop} {p : Nat → Value → Prop}
    (hgood : Outlives good)
    (scalar : ∀ depth c text v rest, good (c :: text) → readScalar c text = .ok (v, rest) →
      p depth v ∧ good rest)
    (array : ∀ depth items, (∀ v ∈ items, p depth v) → p (depth + 1) (.array items))
    (object : ∀ depth members, (∀ entry ∈ members, p depth entry.2) →
      p (depth + 1) (.object members))
    {depth : Nat} {text rest : List Char} {v : Value} (htext : good text)
    (h : readValue depth text = .ok (v, rest)) : p depth v ∧ good rest := by
  induction depth using Nat.strongRecOn generalizing text v rest with
  | ind depth ih =>
    have hnext := hgood.blanks htext
    cases readsValue_of_readValue h with
    | scalar heq _ _ hread => exact scalar _ _ _ _ _ (heq ▸ hnext) hread
    | @emptyArray depth _ _ _ heq hclose =>
      have hinside := hgood.blanks (hgood.mark (by simp) (heq ▸ hnext))
      exact ⟨array depth [] (by simp), hgood.mark (by simp) (hclose ▸ hinside)⟩
    | @array depth _ _ _ items heq _ hitems =>
      have hinside := hgood.blanks (hgood.mark (by simp) (heq ▸ hnext))
      obtain ⟨hbelow, hrest⟩ := forall_mem_of_readItems hgood
        (fun _ _ _ => ih depth (Nat.lt_succ_self depth)) (by simp) hinside hitems
      exact ⟨array depth items hbelow, hrest⟩
    | @emptyObject depth _ _ _ heq hclose =>
      have hinside := hgood.blanks (hgood.mark (by simp) (heq ▸ hnext))
      exact ⟨object depth [] (by simp), hgood.mark (by simp) (hclose ▸ hinside)⟩
    | @object depth _ _ _ members heq _ hmembers =>
      have hinside := hgood.blanks (hgood.mark (by simp) (heq ▸ hnext))
      obtain ⟨hbelow, hrest⟩ := forall_mem_of_readMembers hgood
        (fun _ _ _ => ih depth (Nat.lt_succ_self depth)) (by simp) hinside hmembers
      exact ⟨object depth members hbelow, hrest⟩

/-! ## Readers that read more -/

section Containers

variable {item : List Char → Reading Value} {bound text rest : List Char}

/-- A reader that reads more items reads the same arrays. -/
theorem readItems_mono {item' : List Char → Reading Value}
    (hitem : ∀ text r, item text = .ok r → item' text = .ok r) {done : List Value}
    {r : List Value × List Char} (h : readItems item bound done text = .ok r) :
    readItems item' bound done text = .ok r := by
  induction bound generalizing done text with
  | nil => exact h
  | cons _ bound ih =>
    obtain ⟨v, after, hread, hnext⟩ := readItems_cons_eq_ok.mp h
    refine readItems_cons_eq_ok.mpr ⟨v, after, hitem _ _ hread, hnext.imp_right ?_⟩
    rintro ⟨next, hcontinues, hloop⟩
    exact ⟨next, hcontinues, ih hloop⟩

/-- A reader that reads more values reads the same objects. -/
theorem readMembers_mono {item' : List Char → Reading Value}
    (hitem : ∀ text r, item text = .ok r → item' text = .ok r) {done : List (String × Value)}
    {r : List (String × Value) × List Char} (h : readMembers item bound done text = .ok r) :
    readMembers item' bound done text = .ok r := by
  induction bound generalizing done text with
  | nil => exact h
  | cons _ bound ih =>
    obtain ⟨key, afterKey, hkey, v, after, hread, hnext⟩ := readMembers_cons_eq_ok.mp h
    refine readMembers_cons_eq_ok.mpr
      ⟨key, afterKey, hkey, v, after, hitem _ _ hread, hnext.imp_right ?_⟩
    rintro ⟨next, hcontinues, hloop⟩
    exact ⟨next, hcontinues, ih hloop⟩

end Containers

theorem readIdent_eq_ok {v w : Value} {word text rest : List Char}
    (h : readIdent v word text = .ok (w, rest)) : w = v := by
  induction word generalizing text with
  | nil =>
    simp only [readIdent, Except.ok.injEq, Prod.mk.injEq] at h
    exact h.1.symm
  | cons c word ih =>
    cases text with
    | nil => exact absurd h stopBefore_ne_ok
    | cons d text =>
      rw [readIdent] at h
      split at h
      · exact ih h
      · exact absurd h stopAt_ne_ok

theorem nesting_of_readScalar {c : Char} {text rest : List Char} {v : Value}
    (h : readScalar c text = .ok (v, rest)) : v.nesting = 0 := by
  unfold readScalar at h
  split at h
  · rw [readIdent_eq_ok h]
    rfl
  split at h
  · rw [readIdent_eq_ok h]
    rfl
  split at h
  · rw [readIdent_eq_ok h]
    rfl
  split at h
  · obtain ⟨s, -, rfl⟩ := Reading.map_eq_ok.mp h
    rfl
  split at h
  · obtain ⟨n, -, rfl⟩ := Reading.map_eq_ok.mp h
    rfl
  split at h
  · obtain ⟨n, -, rfl⟩ := Reading.map_eq_ok.mp h
    rfl
  · exact absurd h stopAt_ne_ok

/-- Readers bound the nesting of what they read. -/
theorem nesting_le_of_readValue {depth : Nat} {text rest : List Char} {v : Value}
    (h : readValue depth text = .ok (v, rest)) : v.nesting ≤ depth := by
  refine (@readValue_induction _ (fun depth v => v.nesting ≤ depth) outlives_true ?_ ?_ ?_
    _ _ _ _ trivial h).1
  · intro depth c text v rest _ hread
    exact ⟨Nat.le_trans (Nat.le_of_eq (nesting_of_readScalar hread)) (Nat.zero_le _), trivial⟩
  · exact fun depth items => Value.nesting_array_le_iff.mpr
  · exact fun depth members => Value.nesting_object_le_iff.mpr

/-- With one level more the same is read. -/
theorem readValue_succ {depth : Nat} {text : List Char} {r : Value × List Char}
    (h : readValue depth text = .ok r) : readValue (depth + 1) text = .ok r := by
  induction depth using Nat.strongRecOn generalizing text r with
  | ind depth ih =>
    obtain ⟨v, rest⟩ := r
    refine ReadsValue.readValue_eq ?_
    cases readsValue_of_readValue h with
    | scalar heq hbracket hbrace hread => exact .scalar heq hbracket hbrace hread
    | emptyArray heq hclose => exact .emptyArray heq hclose
    | @array depth _ _ _ _ heq hclose hitems =>
      exact .array heq hclose (readItems_mono (fun _ _ => ih depth (Nat.lt_succ_self depth)) hitems)
    | emptyObject heq hclose => exact .emptyObject heq hclose
    | @object depth _ _ _ _ heq hclose hmembers =>
      exact .object heq hclose
        (readMembers_mono (fun _ _ => ih depth (Nat.lt_succ_self depth)) hmembers)

theorem readValue_mono {depth depth' : Nat} (hdepth : depth ≤ depth') {text : List Char}
    {r : Value × List Char} (h : readValue depth text = .ok r) :
    readValue depth' text = .ok r := by
  induction hdepth with
  | refl => exact h
  | step _ ih => exact readValue_succ ih

theorem exists_readValue_of_readDocument {text : List Char} {v : Value}
    (h : readDocument text = .ok v) : ∃ rest, readValue depthLimit text = .ok (v, rest) := by
  unfold readDocument at h
  cases hread : readValue depthLimit text with
  | error s => simp [hread, bind, Except.bind] at h
  | ok p =>
    obtain ⟨w, rest⟩ := p
    simp only [hread, bind, Except.bind] at h
    split at h
    · have hv : w = v := Except.ok.inj h
      exact ⟨rest, hv ▸ rfl⟩
    · exact absurd h stopAt_ne_ok

theorem nesting_le_of_readDocument {text : List Char} {v : Value}
    (h : readDocument text = .ok v) : v.nesting ≤ depthLimit := by
  obtain ⟨rest, hread⟩ := exists_readValue_of_readDocument h
  exact nesting_le_of_readValue hread

namespace Value

theorem read_eq_ok {text : String} {v : Value} :
    Value.read text = .ok v ↔
      ∃ w, readDocument text.toList = .ok w ∧ mergeDuplicates w = v := by
  unfold Value.read readVerbatim
  cases readDocument text.toList with
  | error s => simp [Except.map]
  | ok w => simp [Except.map]

theorem unique_of_read {text : String} {v : Value} (h : Value.read text = .ok v) : Unique v := by
  obtain ⟨w, -, rfl⟩ := read_eq_ok.mp h
  exact unique_mergeDuplicates w

theorem nesting_le_of_read {text : String} {v : Value} (h : Value.read text = .ok v) :
    nesting v ≤ depthLimit := by
  obtain ⟨w, hread, rfl⟩ := read_eq_ok.mp h
  exact Nat.le_trans (nesting_mergeDuplicates_le w) (nesting_le_of_readDocument hread)

end Value
end Json
end Schemata
