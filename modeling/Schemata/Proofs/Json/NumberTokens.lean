import Mathlib.Data.List.TakeWhile
import Schemata.Proofs.Json.RoundTrip

/-!
# Number tokens

The number tokens of a text are the runs of number characters outside of string literals.  If each
of them is a whole number of 64 bits, then no number in the value of the text is stored as a float
(`Value.whole_of_read`): readers leave a token behind as a whole, and a literal ends for them where
it ends for the scan that leaves literals out.
-/

namespace Schemata.Json

/-- Where a scan stands: outside of string literals, inside of one, or behind a backslash. -/
inductive Place where
  | outside
  | inside
  | escaped

/-- The text without its string literals, of which only the opening quotes stay. -/
def withoutStrings : Place → List Char → List Char
  | _, [] => []
  | .outside, c :: text => c :: withoutStrings (if c = '"' then .inside else .outside) text
  | .inside, c :: text =>
    if c = '"' then withoutStrings .outside text
    else withoutStrings (if c = '\\' then .escaped else .inside) text
  | .escaped, _ :: text => withoutStrings .inside text

/-- A digit, a sign, a decimal point, or the letter of an exponent. -/
def isNumberChar (c : Char) : Bool :=
  (digit? c).isSome || ['+', '-', '.', 'e', 'E'].contains c

/-- Some character is a digit. -/
def hasDigit (run : List Char) : Bool :=
  run.any fun c => (digit? c).isSome

/-- The longest runs of number characters, if they have a digit. -/
def numberRuns (text : List Char) : List (List Char) :=
  (text.splitOnP fun c => !isNumberChar c).filter hasDigit

/-- The number tokens of a text. -/
def numberTokens (text : List Char) : List (List Char) :=
  numberRuns (withoutStrings .outside text)

/-- The token is a whole number of 64 bits in decimal digits, without superfluous zeros or signs. -/
def IsWholeText (token : List Char) : Prop :=
  ∃ n : Int, leastWhole ≤ n ∧ n ≤ greatestWhole ∧ token = n.repr.toList

/-- All number tokens of the text are whole numbers of 64 bits. -/
def WholeTokens (text : List Char) : Prop :=
  ∀ token ∈ numberTokens text, IsWholeText token

example :
    numberTokens "\x7b\"e1\\\"2\": [-3, 4.5e+6, true, \"7\"]\x7d".toList =
      ["-3".toList, "4.5e+6".toList] := by
  decide

@[simp] theorem hasDigit_cons {c : Char} {run : List Char} :
    hasDigit (c :: run) = ((digit? c).isSome || hasDigit run) := rfl

/-! ## Whole tokens -/

/-- The character starts a number. -/
def StartsNumber (c : Char) : Prop :=
  c = '-' ∨ (digit? c).isSome = true

instance (c : Char) : Decidable (StartsNumber c) :=
  inferInstanceAs (Decidable (_ ∨ _))

theorem Number.text_whole {n : Int} (h : leastWhole ≤ n ∧ n ≤ greatestWhole) :
    Number.text .json (.whole n h) = n.repr := by
  cases n with
  | ofNat m => rw [Number.text, if_neg (by simp), Int.natAbs_ofNat', Int.repr]
  | negSucc m => rw [Number.text, if_pos (Int.negSucc_lt_zero m), Int.natAbs_negSucc, Int.repr]

theorem IsWholeText.readSigned {token rest : List Char} (h : IsWholeText token)
    (hrest : EndsNumber rest) :
    ∃ n hn, Json.readSigned (token ++ rest) = .ok (.whole n hn, rest) := by
  obtain ⟨n, hleast, hgreatest, rfl⟩ := h
  refine ⟨n, ⟨hleast, hgreatest⟩, ?_⟩
  rw [← Number.text_whole ⟨hleast, hgreatest⟩]
  exact readSigned_whole _ hrest

theorem IsWholeText.first {c : Char} {tail : List Char} (h : IsWholeText (c :: tail)) :
    StartsNumber c := by
  obtain ⟨n, hn, hread⟩ := h.readSigned closes_nil.endsNumber
  exact (readScalar_of_readSigned hread).1

/-! ## Runs -/

section Runs

variable {c : Char} {run text : List Char}

theorem numberRuns_nil : numberRuns [] = [] := by
  simp [numberRuns, hasDigit]

theorem numberRuns_separator (hc : isNumberChar c = false) :
    numberRuns (c :: text) = numberRuns text := by
  rw [numberRuns, List.splitOnP_cons_eq_if_modifyHead, if_pos (by rw [hc, Bool.not_false]),
    List.filter_cons_of_neg (by simp [hasDigit]), numberRuns]

/-- A run ends in front of the first other character. -/
theorem numberRuns_append (hrun : ∀ c ∈ run, isNumberChar c = true)
    (hdigit : hasDigit run = true)
    (htext : ∀ c tail, text = c :: tail → isNumberChar c = false) :
    numberRuns (run ++ text) = run :: numberRuns text := by
  have hsplit : ∀ c ∈ run, (!isNumberChar c) = false := by
    simpa using hrun
  cases text with
  | nil =>
    rw [List.append_nil, numberRuns_nil, numberRuns, List.splitOnP_eq_singleton hsplit,
      List.filter_cons_of_pos hdigit, List.filter_nil]
  | cons c tail =>
    have hc := htext c tail rfl
    rw [numberRuns_separator hc, numberRuns,
      List.splitOnP_append_cons_of_forall_mem hsplit c (by rw [hc, Bool.not_false]),
      List.filter_cons_of_pos hdigit, numberRuns]

/-- Behind a character that starts no whole number, runs are whole if they were so before it. -/
theorem isWholeText_of_cons (hc : ¬ StartsNumber c)
    (h : ∀ run ∈ numberRuns (c :: text), IsWholeText run) :
    ∀ run ∈ numberRuns text, IsWholeText run := by
  by_cases hnumber : isNumberChar c = true
  · obtain ⟨first, more, hsplit⟩ := List.exists_cons_of_ne_nil
      (List.splitOnP_ne_nil (fun c => !isNumberChar c) text)
    unfold numberRuns at h ⊢
    rw [List.splitOnP_cons_eq_if_modifyHead, if_neg (by simp [hnumber]), hsplit,
      List.modifyHead_cons] at h
    rw [hsplit]
    intro run hrun
    obtain ⟨hmem, hdigit⟩ := List.mem_filter.mp hrun
    -- The first run with the character in front would be a token that starts like no whole number.
    rcases List.mem_cons.mp hmem with rfl | hmore
    · have hlonger : hasDigit (c :: run) = true := by
        rw [hasDigit_cons, hdigit, Bool.or_true]
      exact absurd (h _ (List.mem_filter.mpr ⟨List.mem_cons_self, hlonger⟩)).first hc
    · exact h run (List.mem_filter.mpr ⟨List.mem_cons_of_mem _ hmore, hdigit⟩)
  · rwa [numberRuns_separator (by simpa using hnumber)] at h

end Runs

/-! ## String literals -/

section Literals

variable {text rest : List Char}

/-- Hexadecimal digits neither end a literal nor start an escape. -/
theorem withoutStrings_of_hexValues {digits : List Char} {values : List Nat}
    (h : digits.mapM hexValue? = some values) :
    withoutStrings .inside (digits ++ text) = withoutStrings .inside text := by
  induction digits generalizing values with
  | nil => rfl
  | cons c digits ih =>
    rw [List.mapM_cons, Option.bind_eq_bind, Option.bind_eq_some_iff] at h
    obtain ⟨n, hn, h⟩ := h
    rw [Option.bind_eq_bind, Option.bind_eq_some_iff] at h
    obtain ⟨more, hmore, -⟩ := h
    have hvalue : ∀ d, hexValue? d = none → c ≠ d := by
      rintro d hd rfl
      rw [hd] at hn
      contradiction
    rw [List.cons_append, withoutStrings, if_neg (hvalue '"' (by decide)),
      if_neg (hvalue '\\' (by decide)), ih hmore]

theorem withoutStrings_of_readUnit {u : Nat} (h : readUnit text = .ok u) :
    withoutStrings .inside text = withoutStrings .inside (text.drop 4) := by
  unfold readUnit at h
  split at h
  · exact absurd h stopBefore_ne_ok
  · split at h
    · case h_1 hdigits =>
      exact (congrArg _ (List.take_append_drop 4 text).symm).trans
        (withoutStrings_of_hexValues hdigits)
    · simp at h

theorem withoutStrings_of_readUnicode {c : Char} {size : Nat}
    (h : readUnicode text = .ok (c, size)) :
    withoutStrings .escaped ('u' :: text) = withoutStrings .inside (('u' :: text).drop size) := by
  unfold readUnicode at h
  cases hunit : readUnit text with
  | error s => simp [hunit, bind, Except.bind] at h
  | ok u =>
    rw [withoutStrings, withoutStrings_of_readUnit hunit]
    simp only [hunit, bind, Except.bind] at h
    split at h
    · exact absurd h stopBefore_ne_ok
    split at h
    · split at h
      · exact absurd h stopBefore_ne_ok
      · exact absurd h stopBefore_ne_ok
      · case h_3 rest hrest =>
        cases hlow : readUnit rest with
        | error s => simp [hlow] at h
        | ok v =>
          simp only [hlow] at h
          split at h
          · simp only [pure, Except.pure, Except.ok.injEq, Prod.mk.injEq] at h
            -- The second escape starts in the middle of the first one's eleven characters.
            have hdrop : ('u' :: text).drop 11 = rest.drop 4 := by
              rw [List.drop_succ_cons, show 10 = 4 + 6 from rfl, ← List.drop_drop, hrest]
              rfl
            rw [← h.2, hdrop, hrest, ← withoutStrings_of_readUnit hlow]
            rfl
          · exact absurd h stopBefore_ne_ok
      · exact absurd h stopAt_ne_ok
      · exact absurd h stopAt_ne_ok
    · simp only [pure, Except.pure, Except.ok.injEq, Prod.mk.injEq] at h
      rw [← h.2, List.drop_succ_cons]

theorem withoutStrings_of_readEscape {c : Char} {size : Nat}
    (h : readEscape text = .ok (c, size)) :
    withoutStrings .escaped text = withoutStrings .inside (text.drop size) := by
  cases text with
  | nil => exact absurd h stopBefore_ne_ok
  | cons d text =>
    rw [readEscape] at h
    by_cases hunicode : d = 'u'
    · subst hunicode
      exact withoutStrings_of_readUnicode h
    · have hsize : size = 1 := by
        simp only [if_neg hunicode] at h
        split_ifs at h <;> simp_all
      rw [hsize, List.drop_one, List.tail_cons, withoutStrings]

/-- A literal ends where the reader of strings stops. -/
theorem withoutStrings_of_readString {s : String} (h : readString text = .ok (s, rest)) :
    withoutStrings .inside text = withoutStrings .outside rest := by
  suffices ∀ skip done, readStringFrom skip done text = .ok (s, rest) →
      withoutStrings .inside (text.drop skip) = withoutStrings .outside rest from this 0 [] h
  clear h
  induction text with
  | nil => exact fun skip done h => absurd h (by rw [readStringFrom]; exact stopBefore_ne_ok)
  | cons c text ih =>
    intro skip done h
    cases skip with
    | succ skip => exact ih skip done h
    | zero =>
      rw [readStringFrom] at h
      rw [List.drop_zero, withoutStrings]
      split at h
      · case isTrue hquote =>
        simp only [Except.ok.injEq, Prod.mk.injEq] at h
        rw [if_pos hquote, h.2]
      · case isFalse hquote =>
        rw [if_neg hquote]
        split at h
        · case isTrue hslash =>
          rw [if_pos hslash]
          split at h
          · case h_1 d size hescape => rw [withoutStrings_of_readEscape hescape, ih size _ h]
          · simp at h
        · case isFalse hslash =>
          rw [if_neg hslash]
          split at h
          · exact absurd h stopAt_ne_ok
          · exact ih 0 _ h

end Literals

/-! ## Texts with whole tokens -/

section Texts

variable {c : Char} {text rest : List Char}

/-- The character neither opens a literal nor starts a number. -/
def isFiller (c : Char) : Bool :=
  decide (c ≠ '"' ∧ ¬ StartsNumber c)

theorem WholeTokens.of_cons (hc : isFiller c = true) (h : WholeTokens (c :: text)) :
    WholeTokens text := by
  obtain ⟨hquote, hstart⟩ := of_decide_eq_true hc
  refine isWholeText_of_cons hstart fun run hrun => h run ?_
  rwa [numberTokens, withoutStrings, if_neg hquote]

theorem WholeTokens.of_readString {s : String} (hread : readString text = .ok (s, rest))
    (h : WholeTokens ('"' :: text)) : WholeTokens rest := by
  unfold WholeTokens numberTokens at h ⊢
  rw [withoutStrings, if_pos rfl, withoutStrings_of_readString hread] at h
  exact isWholeText_of_cons (by decide) h

theorem outlives_wholeTokens : Outlives WholeTokens where
  blanks {text} h := by
    induction text with
    | nil => exact h
    | cons c text ih =>
      unfold skipBlanks
      by_cases hblank : isBlank c = true
      · rw [List.dropWhile_cons_of_pos hblank]
        simp only [isBlank, Bool.or_eq_true, decide_eq_true_eq] at hblank
        refine ih (h.of_cons ?_)
        rcases hblank with ((rfl | rfl) | rfl) | rfl <;> decide
      · rwa [List.dropWhile_cons_of_neg hblank]
  mark {c text} hc h := by
    have hmarks : ['[', ']', '\x7b', '\x7d', ',', ':'].all isFiller = true := by decide
    exact h.of_cons (List.all_eq_true.mp hmarks c hc)
  string := WholeTokens.of_readString

theorem WholeTokens.of_readIdent {v w : Value} {word : List Char}
    (hword : word.all isFiller = true) (hread : readIdent v word text = .ok (w, rest))
    (h : WholeTokens text) : WholeTokens rest := by
  induction word generalizing text with
  | nil =>
    simp only [readIdent, Except.ok.injEq, Prod.mk.injEq] at hread
    exact hread.2 ▸ h
  | cons c word ih =>
    rw [List.all_cons, Bool.and_eq_true] at hword
    cases text with
    | nil => exact absurd hread stopBefore_ne_ok
    | cons d text =>
      rw [readIdent] at hread
      split at hread
      · case isTrue heq =>
        subst heq
        exact ih hword.2 hread (h.of_cons hword.1)
      · exact absurd hread stopAt_ne_ok

/-- A run of number characters is left alone by the scan for literals. -/
theorem withoutStrings_append {run : List Char} (hrun : ∀ c ∈ run, isNumberChar c = true) :
    withoutStrings .outside (run ++ text) = run ++ withoutStrings .outside text := by
  induction run with
  | nil => rfl
  | cons c run ih =>
    rw [List.forall_mem_cons] at hrun
    have hquote : c ≠ '"' := by
      rintro rfl
      exact absurd hrun.1 (by decide)
    rw [List.cons_append, withoutStrings, if_neg hquote, ih hrun.2, List.cons_append]

theorem numberTokens_append {run : List Char} (hrun : ∀ c ∈ run, isNumberChar c = true)
    (hdigit : hasDigit run = true)
    (htext : ∀ c tail, text = c :: tail → isNumberChar c = false) :
    numberTokens (run ++ text) = run :: numberTokens text := by
  rw [numberTokens, withoutStrings_append hrun]
  refine numberRuns_append hrun hdigit fun c tail h => ?_
  cases text with
  | nil => simp [withoutStrings] at h
  | cons d text =>
    rw [withoutStrings, List.cons.injEq] at h
    exact h.1 ▸ htext d text rfl

/-- A number has a digit in front of whatever ends it. -/
theorem hasDigit_of_readSigned {n : Number} (h : readSigned text = .ok (n, rest)) :
    hasDigit (text.takeWhile isNumberChar) = true := by
  have hfirst : ∀ c tail, (digit? c).isSome = true →
      hasDigit ((c :: tail).takeWhile isNumberChar) = true := by
    intro c tail hc
    rw [List.takeWhile_cons_of_pos (by simp [isNumberChar, hc]), hasDigit_cons, hc, Bool.true_or]
  have hunsigned : ∀ negative text, readUnsigned negative text = .ok (n, rest) →
      hasDigit (text.takeWhile isNumberChar) = true := by
    intro negative text h
    cases text with
    | nil => exact absurd h stopBefore_ne_ok
    | cons c tail => exact hfirst c tail (isSome_digit?_of_readUnsigned h)
  unfold readSigned at h
  split at h
  · rw [List.takeWhile_cons_of_pos (by decide), hasDigit_cons, hunsigned _ _ h, Bool.or_true]
  · exact hunsigned _ _ h

theorem endsNumber_of_separator
    (h : ∀ c tail, text = c :: tail → isNumberChar c = false) : EndsNumber text := by
  intro c tail htext
  have hc := h c tail htext
  simp only [isNumberChar, Bool.or_eq_false_iff, Option.isSome_eq_false_iff,
    Option.isNone_iff_eq_none] at hc
  refine ⟨hc.1, ?_, ?_, ?_⟩ <;> rintro rfl <;> exact absurd hc.2 (by decide)

/-- What is read from a whole token is the whole number that it says. -/
theorem WholeTokens.of_readSigned {n : Number} (hread : readSigned text = .ok (n, rest))
    (h : WholeTokens text) : Value.Whole (.number n) ∧ WholeTokens rest := by
  have hsplit := @List.takeWhile_append_dropWhile _ isNumberChar text
  have hafter : ∀ c tail, text.dropWhile isNumberChar = c :: tail → isNumberChar c = false := by
    intro c tail htail
    have hhead := List.head?_dropWhile_not isNumberChar text
    rwa [htail] at hhead
  have htokens : numberTokens text =
      text.takeWhile isNumberChar :: numberTokens (text.dropWhile isNumberChar) := by
    rw [← numberTokens_append (fun c => List.mem_takeWhile_imp) (hasDigit_of_readSigned hread)
      hafter, hsplit]
  unfold WholeTokens at h
  rw [htokens, List.forall_mem_cons] at h
  obtain ⟨m, hm, hwhole⟩ := h.1.readSigned (endsNumber_of_separator hafter)
  rw [hsplit, hread, Except.ok.injEq, Prod.mk.injEq] at hwhole
  rw [hwhole.1, hwhole.2]
  exact ⟨Value.whole_of_ne_container (by simp) (by simp) (by simp), h.2⟩

theorem WholeTokens.of_readScalar {v : Value} (hread : readScalar c text = .ok (v, rest))
    (h : WholeTokens (c :: text)) : v.Whole ∧ WholeTokens rest := by
  have hident : ∀ {value : Value} {word : List Char}, value.Whole →
      (c :: word).all isFiller = true → readIdent value word text = .ok (v, rest) →
      v.Whole ∧ WholeTokens rest := by
    intro value word hvalue hword hread
    rw [List.all_cons, Bool.and_eq_true] at hword
    exact ⟨readIdent_eq_ok hread ▸ hvalue, (h.of_cons hword.1).of_readIdent hword.2 hread⟩
  have hsimple : Value.Whole .null ∧ (∀ b, Value.Whole (.bool b)) ∧
      ∀ s, Value.Whole (.string s) := by
    refine ⟨?_, fun b => ?_, fun s => ?_⟩ <;>
      exact Value.whole_of_ne_container (by simp) (by simp) (by simp)
  unfold readScalar at hread
  split at hread
  · case isTrue hc =>
    subst hc
    exact hident hsimple.1 (by decide) hread
  split at hread
  · case isTrue hc =>
    subst hc
    exact hident (hsimple.2.1 true) (by decide) hread
  split at hread
  · case isTrue hc =>
    subst hc
    exact hident (hsimple.2.1 false) (by decide) hread
  split at hread
  · case isTrue hc =>
    subst hc
    obtain ⟨s, hs, rfl⟩ := Reading.map_eq_ok.mp hread
    exact ⟨hsimple.2.2 s, h.of_readString hs⟩
  split at hread
  · case isTrue hc =>
    subst hc
    obtain ⟨n, hn, rfl⟩ := Reading.map_eq_ok.mp hread
    have hsigned : readSigned ('-' :: text) = .ok (n, rest) := hn
    exact h.of_readSigned hsigned
  · case isFalse hminus =>
    split at hread
    · obtain ⟨n, hn, rfl⟩ := Reading.map_eq_ok.mp hread
      have hsigned : readSigned (c :: text) = .ok (n, rest) := by
        unfold readSigned
        split
        · case h_1 heq => exact absurd (List.cons.inj heq).1 hminus
        · exact hn
      exact h.of_readSigned hsigned
    · exact absurd hread stopAt_ne_ok

end Texts

/-- A text with whole tokens is read as a value without floats. -/
theorem whole_of_readValue {depth : Nat} {text rest : List Char} {v : Value}
    (htokens : WholeTokens text) (h : readValue depth text = .ok (v, rest)) :
    v.Whole ∧ WholeTokens rest :=
  readValue_induction outlives_wholeTokens (fun _ _ _ _ _ h hread => h.of_readScalar hread)
    (fun _ _ => Value.whole_array_iff.mpr) (fun _ _ => Value.whole_object_iff.mpr) htokens h

theorem Value.whole_of_read {text : String} {v : Value} (htokens : WholeTokens text.toList)
    (h : Value.read text = .ok v) : v.Whole := by
  obtain ⟨w, hread, rfl⟩ := read_eq_ok.mp h
  obtain ⟨rest, hvalue⟩ := exists_readValue_of_readDocument hread
  exact whole_mergeDuplicates (whole_of_readValue htokens hvalue).1

end Schemata.Json
