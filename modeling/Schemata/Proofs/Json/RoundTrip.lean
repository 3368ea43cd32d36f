import Schemata.Proofs.Json.FloatRange
import Schemata.Proofs.Json.StringText

/-!
# Reading compact texts

A value that is printed and read again keeps its shape, its keys, its strings and its whole
numbers; a float may come back as a neighbour.  `Value.reread` is what comes back.  The reader
refuses a text exactly when the value is nested too deeply.
-/

namespace Schemata.Json

/-! ## What comes back -/

/-- The number that is read from the text of a number. -/
def Number.reread (n : Number) : Number :=
  match readSigned (n.text .json).toList with
  | .ok (m, _) => m
  | .error _ => n

theorem readSigned_text (n : Number) {rest : List Char} (hrest : Closes rest) :
    readSigned ((n.text .json).toList ++ rest) = .ok (n.reread, rest) := by
  obtain ⟨m, hm⟩ : ∃ m, ∀ rest, Closes rest →
      readSigned ((n.text .json).toList ++ rest) = .ok (m, rest) := by
    cases n with
    | whole n h => exact ⟨_, fun rest hrest => readSigned_whole h hrest.endsNumber⟩
    | float x =>
      obtain ⟨y, hy⟩ := exists_readSigned_float x
      exact ⟨_, hy⟩
  have hself : readSigned (n.text .json).toList = .ok (m, []) := by
    rw [← hm [] closes_nil, List.append_nil]
  rw [hm rest hrest, Number.reread, hself]

theorem Number.reread_whole {n : Int} (h : leastWhole ≤ n ∧ n ≤ greatestWhole) :
    Number.reread (.whole n h) = .whole n h := by
  have hread := readSigned_text (.whole n h) closes_nil
  rw [readSigned_whole h closes_nil.endsNumber] at hread
  simp only [Except.ok.injEq, Prod.mk.injEq, and_true] at hread
  exact hread.symm

namespace Value

mutual

/-- The value that is read from the compact text of a value. -/
def reread : Value → Value
  | number n => number n.reread
  | array items => array (rereadItems items)
  | object members => object (rereadMembers members)
  | v => v

/-- `reread` on every item. -/
def rereadItems : List Value → List Value
  | [] => []
  | v :: rest => reread v :: rereadItems rest

/-- `reread` on the value of every member. -/
def rereadMembers : List (String × Value) → List (String × Value)
  | [] => []
  | (k, v) :: rest => (k, reread v) :: rereadMembers rest

end

theorem rereadItems_eq_map (items : List Value) : rereadItems items = items.map reread := by
  induction items with
  | nil => rfl
  | cons v rest ih => rw [rereadItems, ih, List.map_cons]

theorem rereadMembers_eq_map (members : Members) :
    rereadMembers members = members.map fun entry => (entry.1, reread entry.2) := by
  induction members with
  | nil => rfl
  | cons entry rest ih => rw [rereadMembers, ih, List.map_cons]

theorem keys_rereadMembers (members : Members) :
    Members.keys (rereadMembers members) = Members.keys members := by
  rw [rereadMembers_eq_map, Members.keys, List.map_map]
  rfl

theorem find?_rereadMembers (key : String) (members : Members) :
    Members.find? key (rereadMembers members) = (Members.find? key members).map reread := by
  induction members with
  | nil => rfl
  | cons entry rest ih =>
    obtain ⟨k, v⟩ := entry
    rw [rereadMembers, Members.find?_cons, Members.find?_cons, ih]
    split <;> rfl

theorem nesting_reread (v : Value) : nesting (reread v) = nesting v := by
  induction v using treeInduction with
  | null | bool _ | number _ | string _ => rfl
  | array items ih =>
    rw [reread, nesting, nesting]
    congr 1
    induction items with
    | nil => rfl
    | cons v rest ihrest =>
      rw [List.forall_mem_cons] at ih
      rw [rereadItems, nestingItems, nestingItems, ih.1, ihrest ih.2]
  | object members ih =>
    rw [reread, nesting, nesting]
    congr 1
    induction members with
    | nil => rfl
    | cons entry rest ihrest =>
      rw [List.forall_mem_cons] at ih
      rw [rereadMembers, nestingMembers, nestingMembers, ih.1, ihrest ih.2]

theorem unique_reread {v : Value} (h : Unique v) : Unique (reread v) := by
  induction v using treeInduction with
  | null | bool _ | number _ | string _ =>
    exact unique_of_ne_container (by simp [reread]) (by simp [reread])
  | array items ih =>
    rw [reread, rereadItems_eq_map, unique_array_iff, List.forall_mem_map]
    exact fun v hv => ih v hv (h.item hv)
  | object members ih =>
    rw [reread, unique_object_iff]
    refine ⟨?_, ?_⟩
    · rw [Members.UniqueKeys, keys_rereadMembers]
      exact h.keys
    · rw [rereadMembers_eq_map, List.forall_mem_map]
      exact fun entry hentry => ih entry hentry ((unique_object_iff.mp h).2 entry hentry)

/-- Without floats nothing changes. -/
theorem reread_of_whole {v : Value} (h : Whole v) : reread v = v := by
  induction v using treeInduction with
  | null | bool _ | string _ => rfl
  | number n =>
    cases n with
    | whole n hrange => rw [reread, Number.reread_whole]
    | float x => exact absurd .self (h x)
  | array items ih =>
    have hmap : items.map reread = items.map id :=
      List.map_congr_left fun v hv => ih v hv (h.item hv)
    rw [reread, rereadItems_eq_map, hmap, List.map_id]
  | object members ih =>
    have hmap : members.map (fun entry => (entry.1, reread entry.2)) = members.map id :=
      List.map_congr_left fun entry hentry => by
        rw [ih entry hentry (h.entry hentry)]
        rfl
    rw [reread, rereadMembers_eq_map, hmap, List.map_id]

end Value

/-! ## The first character of a text -/

open Value

theorem isSome_digit?_of_readUnsigned {negative : Bool} {c : Char} {text rest : List Char}
    {n : Number} (h : readUnsigned negative (c :: text) = .ok (n, rest)) :
    (digit? c).isSome = true := by
  cases hdigit : digit? c with
  | none =>
    unfold readUnsigned at h
    simp only [hdigit] at h
    exact absurd h stopAt_ne_ok
  | some d => rfl

theorem ne_of_isSome_digit? {c d : Char} (hc : (digit? c).isSome = true) (hd : digit? d = none) :
    c ≠ d := by
  rintro rfl
  rw [hd] at hc
  simp at hc

/-- A number starts with a minus sign or a digit, and is read as a scalar. -/
theorem readScalar_of_readSigned {c : Char} {text rest : List Char} {n : Number}
    (h : readSigned (c :: text) = .ok (n, rest)) :
    (c = '-' ∨ (digit? c).isSome = true) ∧ readScalar c text = .ok (.number n, rest) := by
  by_cases hminus : c = '-'
  · subst hminus
    have hread : readUnsigned true text = .ok (n, rest) := h
    refine ⟨Or.inl rfl, ?_⟩
    unfold readScalar
    simp [hread, Reading.map, Reading.andThen]
  · have hread : readUnsigned false (c :: text) = .ok (n, rest) := by
      unfold readSigned at h
      split at h
      · case h_1 heq =>
        rw [List.cons.injEq] at heq
        exact absurd heq.1 hminus
      · exact h
    have hdigit := isSome_digit?_of_readUnsigned hread
    refine ⟨Or.inr hdigit, ?_⟩
    unfold readScalar
    rw [if_neg (ne_of_isSome_digit? hdigit (by decide)),
      if_neg (ne_of_isSome_digit? hdigit (by decide)),
      if_neg (ne_of_isSome_digit? hdigit (by decide)),
      if_neg (ne_of_isSome_digit? hdigit (by decide)), if_neg hminus, if_pos hdigit, hread]
    rfl

/-- The character may start a value: it is no blank and closes nothing. -/
def StartsValue (c : Char) : Prop :=
  isBlank c = false ∧ c ≠ ']' ∧ c ≠ '\x7d'

instance (c : Char) : Decidable (StartsValue c) :=
  inferInstanceAs (Decidable (_ ∧ _))

theorem skipBlanks_cons {c : Char} (h : isBlank c = false) (text : List Char) :
    skipBlanks (c :: text) = c :: text := by
  unfold skipBlanks
  rw [List.dropWhile_cons_of_neg (by rw [h]; decide)]

theorem startsValue_of_number {c : Char} (h : c = '-' ∨ (digit? c).isSome = true) :
    StartsValue c := by
  rcases h with rfl | hdigit
  · decide
  · have hblank : ∀ d : Char, digit? d = none → c ≠ d := fun d => ne_of_isSome_digit? hdigit
    refine ⟨?_, hblank ']' (by decide), hblank '\x7d' (by decide)⟩
    simp [isBlank, hblank ' ' (by decide), hblank '\n' (by decide), hblank '\t' (by decide),
      hblank '\r' (by decide)]

theorem exists_compactChars (v : Value) :
    ∃ c tail, compactChars v = c :: tail ∧ StartsValue c := by
  cases v with
  | null => exact ⟨'n', _, rfl, by decide⟩
  | bool b =>
    cases b with
    | false => exact ⟨'f', _, rfl, by decide⟩
    | true => exact ⟨'t', _, rfl, by decide⟩
  | number n =>
    have hread := readSigned_text n closes_nil
    rw [List.append_nil] at hread
    cases htext : (n.text .json).toList with
    | nil =>
      rw [htext] at hread
      exact absurd hread stopBefore_ne_ok
    | cons c tail =>
      rw [htext] at hread
      exact ⟨c, tail, htext, startsValue_of_number (readScalar_of_readSigned hread).1⟩
  | string s => exact ⟨'"', _, rfl, by decide⟩
  | array items => exact ⟨'[', _, rfl, by decide⟩
  | object members => exact ⟨'\x7b', _, rfl, by decide⟩

/-! ## Arrays -/

section Arrays

variable {item : List Char → Reading Value} {b c : Char} {bound text rest tail : List Char}
  {v : Value} {done : List Value}

theorem readItems_last (h : item text = .ok (v, ']' :: rest)) :
    readItems item (b :: bound) done text = .ok (done.reverse ++ [v], rest) := by
  rw [readItems, h]
  simp [Reading.andThen, skipBlanks, isBlank]

theorem readItems_comma (h : item text = .ok (v, ',' :: c :: tail)) (hc : StartsValue c) :
    readItems item (b :: bound) done text = readItems item bound (v :: done) (c :: tail) := by
  have hcomma : skipBlanks (',' :: c :: tail) = ',' :: c :: tail := skipBlanks_cons (by decide) _
  rw [readItems, h]
  simp only [Reading.andThen, hcomma, skipBlanks_cons hc.1]
  rw [if_neg (by decide), if_pos trivial]
  split
  · case h_1 heq => simp at heq
  · case h_2 heq => exact absurd (List.cons.inj heq).1 hc.2.1
  · rfl

theorem exists_compactItems (v : Value) (items : List Value) :
    ∃ c tail, compactItems (v :: items) = c :: tail ∧ StartsValue c := by
  obtain ⟨c, tail, hv, hc⟩ := exists_compactChars v
  cases items with
  | nil => exact ⟨c, tail, hv, hc⟩
  | cons w items =>
    refine ⟨c, tail ++ ',' :: compactItems (w :: items), ?_, hc⟩
    rw [compactItems, hv, List.cons_append]
    simp

theorem length_le_compactItems (items : List Value) :
    items.length ≤ (compactItems items).length := by
  induction items with
  | nil => exact Nat.zero_le _
  | cons v items ih =>
    cases items with
    | nil =>
      obtain ⟨c, tail, hv, -⟩ := exists_compactItems v []
      rw [hv]
      simp
    | cons w items =>
      rw [compactItems]
      · simp only [List.length_append, List.length_cons] at ih ⊢
        omega
      · simp

theorem readItems_compact {items : List Value} (hne : items ≠ [])
    (hitem : ∀ v ∈ items, ∀ rest, Closes rest →
      item (compactChars v ++ rest) = .ok (reread v, rest))
    (hbound : items.length ≤ bound.length) :
    readItems item bound done (compactItems items ++ ']' :: rest) =
      .ok (done.reverse ++ rereadItems items, rest) := by
  induction items generalizing bound done with
  | nil => exact absurd rfl hne
  | cons v more ih =>
    obtain ⟨b, bound, rfl⟩ := List.exists_cons_of_length_pos (Nat.lt_of_lt_of_le (by simp) hbound)
    have hv := hitem v List.mem_cons_self
    cases more with
    | nil => exact readItems_last (hv _ (closes_cons (by simp)))
    | cons w others =>
      obtain ⟨c, tail, htail, hc⟩ := exists_compactItems w others
      have hread : item (compactItems (v :: w :: others) ++ ']' :: rest) =
          .ok (reread v, ',' :: c :: (tail ++ ']' :: rest)) := by
        have htext : compactItems (v :: w :: others) ++ ']' :: rest =
            compactChars v ++ ',' :: c :: (tail ++ ']' :: rest) := by
          rw [compactItems, htail] <;> simp
        rw [htext]
        exact hv _ (closes_cons (by simp))
      rw [readItems_comma hread hc, ← List.cons_append, ← htail,
        ih (by simp) (fun u hu => hitem u (List.mem_cons_of_mem _ hu)) (by simpa using hbound)]
      simp [rereadItems]

end Arrays

/-! ## Objects -/

section Objects

variable {item : List Char → Reading Value} {b : Char} {bound text rest tail : List Char}
  {k : String} {v : Value} {done : List (String × Value)}

theorem readKey_quote (k : String) (text : List Char) :
    readKey (quote k ++ ':' :: text) = .ok (k, text) := by
  have hread : readString (k.toList.flatMap escapeChar ++ '"' :: ':' :: text) =
      .ok (k, ':' :: text) := readString_quote k _
  unfold quote
  simp only [List.cons_append, List.append_assoc, List.nil_append]
  rw [readKey, hread]
  rfl

theorem readMembers_last (h : item text = .ok (v, '\x7d' :: rest)) :
    readMembers item (b :: bound) done (quote k ++ ':' :: text) =
      .ok (done.reverse ++ [(k, v)], rest) := by
  rw [readMembers, readKey_quote]
  simp [Reading.andThen, h, skipBlanks, isBlank]

theorem readMembers_comma (h : item text = .ok (v, ',' :: '"' :: tail)) :
    readMembers item (b :: bound) done (quote k ++ ':' :: text) =
      readMembers item bound ((k, v) :: done) ('"' :: tail) := by
  rw [readMembers, readKey_quote]
  simp [Reading.andThen, h, skipBlanks, isBlank]

theorem exists_compactMembers (entry : String × Value) (members : Members) :
    ∃ tail, compactMembers (entry :: members) = '"' :: tail := by
  obtain ⟨k, v⟩ := entry
  cases members with
  | nil => exact ⟨_, rfl⟩
  | cons other members =>
    rw [compactMembers]
    · exact ⟨_, rfl⟩
    · simp

theorem length_le_compactMembers (members : Members) :
    members.length ≤ (compactMembers members).length := by
  induction members with
  | nil => exact Nat.zero_le _
  | cons entry members ih =>
    obtain ⟨k, v⟩ := entry
    cases members with
    | nil =>
      obtain ⟨tail, htail⟩ := exists_compactMembers (k, v) []
      rw [htail]
      simp
    | cons other members =>
      rw [compactMembers]
      · simp only [List.length_append, List.length_cons] at ih ⊢
        omega
      · simp

theorem readMembers_compact {members : Members} (hne : members ≠ [])
    (hitem : ∀ entry ∈ members, ∀ rest, Closes rest →
      item (compactChars entry.2 ++ rest) = .ok (reread entry.2, rest))
    (hbound : members.length ≤ bound.length) :
    readMembers item bound done (compactMembers members ++ '\x7d' :: rest) =
      .ok (done.reverse ++ rereadMembers members, rest) := by
  induction members generalizing bound done with
  | nil => exact absurd rfl hne
  | cons entry more ih =>
    obtain ⟨k, v⟩ := entry
    obtain ⟨b, bound, rfl⟩ := List.exists_cons_of_length_pos (Nat.lt_of_lt_of_le (by simp) hbound)
    have hv := hitem (k, v) List.mem_cons_self
    cases more with
    | nil =>
      have htext : compactMembers [(k, v)] ++ '\x7d' :: rest =
          quote k ++ ':' :: (compactChars v ++ '\x7d' :: rest) := by
        simp [compactMembers]
      rw [htext]
      exact readMembers_last (hv _ (closes_cons (by simp)))
    | cons other others =>
      obtain ⟨tail, htail⟩ := exists_compactMembers other others
      have htext : compactMembers ((k, v) :: other :: others) ++ '\x7d' :: rest =
          quote k ++ ':' :: (compactChars v ++ ',' :: '"' :: (tail ++ '\x7d' :: rest)) := by
        rw [compactMembers, htail] <;> simp
      rw [htext, readMembers_comma (hv _ (closes_cons (by simp))), ← List.cons_append, ← htail,
        ih (by simp) (fun u hu => hitem u (List.mem_cons_of_mem _ hu)) (by simpa using hbound)]
      simp [rereadMembers]

end Objects

/-! ## Values -/

section Dispatch

variable {depth : Nat} {c : Char} {text : List Char}

theorem readValue_scalar (hblank : isBlank c = false) (hbracket : c ≠ '[') (hbrace : c ≠ '\x7b') :
    readValue depth (c :: text) = readScalar c text := by
  unfold readValue
  simp only [skipBlanks_cons hblank, if_neg hbracket, if_neg hbrace]

theorem readValue_array (hc : StartsValue c) :
    readValue (depth + 1) ('[' :: c :: text) =
      (readItems (readValue depth) (c :: text) [] (c :: text)).map .array := by
  have hbracket : skipBlanks ('[' :: c :: text) = '[' :: c :: text := skipBlanks_cons (by decide) _
  rw [readValue]
  simp only [hbracket, if_true, skipBlanks_cons hc.1]
  split
  · case h_1 heq => simp at heq
  · case h_2 heq => exact absurd (List.cons.inj heq).1 hc.2.1
  · rfl

theorem readValue_object :
    readValue (depth + 1) ('\x7b' :: '"' :: text) =
      (readMembers (readValue depth) ('"' :: text) [] ('"' :: text)).map .object := by
  rfl

/-- An array is read back if its items are, one level below. -/
theorem readValue_compactArray {items : List Value} {rest : List Char}
    (h : ∀ v ∈ items, ∀ rest, Closes rest →
      readValue depth (compactChars v ++ rest) = .ok (reread v, rest)) :
    readValue (depth + 1) (compactChars (.array items) ++ rest) =
      .ok (reread (.array items), rest) := by
  cases items with
  | nil => rfl
  | cons v items =>
    have hread : readItems (readValue depth) (compactItems (v :: items) ++ ']' :: rest) []
        (compactItems (v :: items) ++ ']' :: rest) = .ok (rereadItems (v :: items), rest) := by
      refine readItems_compact (by simp) h ?_
      have := length_le_compactItems (v :: items)
      rw [List.length_append]
      omega
    obtain ⟨c, tail, htail, hc⟩ := exists_compactItems v items
    rw [htail, List.cons_append] at hread
    rw [compactChars, htail]
    simp only [List.cons_append, List.append_assoc, List.nil_append]
    rw [readValue_array hc, hread]
    rfl

/-- An object is read back if its members are, one level below. -/
theorem readValue_compactObject {members : Members} {rest : List Char}
    (h : ∀ entry ∈ members, ∀ rest, Closes rest →
      readValue depth (compactChars entry.2 ++ rest) = .ok (reread entry.2, rest)) :
    readValue (depth + 1) (compactChars (.object members) ++ rest) =
      .ok (reread (.object members), rest) := by
  cases members with
  | nil => rfl
  | cons entry members =>
    have hread : readMembers (readValue depth)
        (compactMembers (entry :: members) ++ '\x7d' :: rest)
        [] (compactMembers (entry :: members) ++ '\x7d' :: rest) =
          .ok (rereadMembers (entry :: members), rest) := by
      refine readMembers_compact (by simp) h ?_
      have := length_le_compactMembers (entry :: members)
      rw [List.length_append]
      omega
    obtain ⟨tail, htail⟩ := exists_compactMembers entry members
    rw [htail, List.cons_append] at hread
    rw [compactChars, htail]
    simp only [List.cons_append, List.append_assoc, List.nil_append]
    rw [readValue_object, hread]
    rfl

end Dispatch

/-- A value is read back from its compact text, if there are levels enough. -/
theorem readValue_compactChars {v : Value} {depth : Nat} {rest : List Char}
    (hdepth : nesting v ≤ depth) (hrest : Closes rest) :
    readValue depth (compactChars v ++ rest) = .ok (reread v, rest) := by
  induction v using treeInduction generalizing depth rest with
  | null => exact readValue_scalar (by decide) (by decide) (by decide)
  | bool b =>
    cases b with
    | false => exact readValue_scalar (by decide) (by decide) (by decide)
    | true => exact readValue_scalar (by decide) (by decide) (by decide)
  | number n =>
    have hread := readSigned_text n hrest
    obtain ⟨c, tail, htext, hc⟩ := exists_compactChars (.number n)
    rw [compactChars] at htext ⊢
    rw [htext, List.cons_append] at hread ⊢
    obtain ⟨hfirst, hscalar⟩ := readScalar_of_readSigned hread
    rw [readValue_scalar hc.1, hscalar]
    · rfl
    · rintro rfl
      simp [digit?] at hfirst
    · rintro rfl
      simp [digit?] at hfirst
  | string s =>
    have hread := readString_quote s rest
    rw [compactChars, quote, List.cons_append, List.cons_append, List.append_assoc,
      List.singleton_append, readValue_scalar (by decide) (by decide) (by decide)]
    change Reading.map Value.string (readString (s.toList.flatMap escapeChar ++ '"' :: rest)) = _
    rw [hread]
    rfl
  | array items ih =>
    obtain ⟨depth, rfl⟩ : ∃ more, depth = more + 1 := ⟨depth - 1, by rw [nesting] at hdepth; omega⟩
    rw [nesting_array_le_iff] at hdepth
    exact readValue_compactArray fun v hv rest => ih v hv (hdepth v hv)
  | object members ih =>
    obtain ⟨depth, rfl⟩ : ∃ more, depth = more + 1 := ⟨depth - 1, by rw [nesting] at hdepth; omega⟩
    rw [nesting_object_le_iff] at hdepth
    exact readValue_compactObject fun entry hentry rest => ih entry hentry (hdepth entry hentry)

/-! ## Documents -/

theorem readDocument_eq_ok {text : List Char} {v : Value}
    (h : readValue depthLimit text = .ok (v, [])) :
    readDocument text = .ok v := by
  unfold readDocument
  rw [h]
  rfl

namespace Value

/-- A value that is not nested too deeply is read back from its compact text. -/
theorem read_compact {v : Value} (hu : Unique v) (hnesting : nesting v ≤ depthLimit) :
    Value.read (compact v) = .ok (reread v) := by
  have hread := readValue_compactChars hnesting closes_nil
  rw [List.append_nil] at hread
  rw [read_eq_ok, compact, String.toList_ofList]
  exact ⟨reread v, readDocument_eq_ok hread, mergeDuplicates_of_unique (unique_reread hu)⟩

/-- The compact text of a value that is nested too deeply is refused. -/
theorem read_compact_of_deep {v : Value} (hnesting : depthLimit < nesting v) :
    ∃ fault, Value.read (compact v) = .error fault := by
  cases hread : Value.read (compact v) with
  | error fault => exact ⟨fault, rfl⟩
  | ok w =>
    obtain ⟨u, hu, -⟩ := read_eq_ok.mp hread
    rw [compact, String.toList_ofList] at hu
    have hdeep : readValue (nesting v) (compactChars v) = .ok (reread v, []) := by
      have hfull := readValue_compactChars (Nat.le_refl (nesting v)) closes_nil
      rwa [List.append_nil] at hfull
    obtain ⟨rest, hshallow⟩ : ∃ rest, readValue depthLimit (compactChars v) = .ok (u, rest) :=
      exists_readValue_of_readDocument hu
    have hsame := readValue_mono (Nat.le_of_lt hnesting) hshallow
    rw [hdeep, Except.ok.injEq, Prod.mk.injEq] at hsame
    have hle := nesting_le_of_readValue hshallow
    rw [← hsame.1, nesting_reread] at hle
    omega

end Value
end Schemata.Json
