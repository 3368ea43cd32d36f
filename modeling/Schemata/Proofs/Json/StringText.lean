import Schemata.Json.Printer
import Schemata.Proofs.Json.Reader

/-!
# Reading string literals

A quoted string is read back character by character: each is either written as it is or as an
escape that the reader resolves to it.
-/

namespace Schemata.Json

/-- The four digits of a control character. -/
theorem readUnit_control : ∀ n < 32,
    byteCount ['0', '0', hexDigit (n / 16), hexDigit (n % 16)] = 4 ∧
      ['0', '0', hexDigit (n / 16), hexDigit (n % 16)].mapM hexValue? =
        some [0, 0, n / 16, n % 16] := by
  decide

theorem readUnicode_control {c : Char} {rest : List Char} (hc : c.toNat < 32) :
    readUnicode ('0' :: '0' :: hexDigit (c.toNat / 16) :: hexDigit (c.toNat % 16) :: rest) =
      .ok (c, 5) := by
  obtain ⟨hcount, hdigits⟩ := readUnit_control c.toNat hc
  have hvalue : ((0 * 16 + 0) * 16 + c.toNat / 16) * 16 + c.toNat % 16 = c.toNat := by
    omega
  have hunit : readUnit ('0' :: '0' :: hexDigit (c.toNat / 16) :: hexDigit (c.toNat % 16) :: rest) =
      .ok c.toNat := by
    unfold readUnit
    simp only [List.take_succ_cons, List.take_zero, hcount, hdigits, hvalue]
    rfl
  have hlow : isLowSurrogate c.toNat = false := by
    simp [isLowSurrogate]
    omega
  have hhigh : isHighSurrogate c.toNat = false := by
    simp [isHighSurrogate]
    omega
  unfold readUnicode
  rw [hunit]
  change (if isLowSurrogate c.toNat = true then _ else if isHighSurrogate c.toNat = true then _
    else _) = _
  rw [hlow, hhigh, if_neg (by decide), if_neg (by decide)]
  change Except.ok (Char.ofNat c.toNat, 5) = _
  rw [Char.ofNat_toNat]

/-- One character of a literal, written by the printer, is read back. -/
theorem readStringFrom_escapeChar (c : Char) (done tail : List Char) :
    readStringFrom 0 done (escapeChar c ++ tail) = readStringFrom 0 (c :: done) tail := by
  unfold escapeChar
  by_cases hquote : c = '"'
  · subst hquote
    rfl
  by_cases hslash : c = '\\'
  · subst hslash
    rfl
  by_cases hline : c = '\n'
  · subst hline
    rfl
  by_cases hreturn : c = '\r'
  · subst hreturn
    rfl
  by_cases htab : c = '\t'
  · subst htab
    rfl
  by_cases hback : c = '\x08'
  · subst hback
    rfl
  by_cases hfeed : c = '\x0c'
  · subst hfeed
    rfl
  rw [if_neg hquote, if_neg hslash, if_neg hline, if_neg hreturn, if_neg htab, if_neg hback,
    if_neg hfeed]
  by_cases hcontrol : c < ' '
  · have hescape : readEscape ('u' :: '0' :: '0' :: hexDigit (c.toNat / 16) ::
        hexDigit (c.toNat % 16) :: tail) = .ok (c, 5) := by
      have hlt : c.toNat < 32 := hcontrol
      rw [← @readUnicode_control c tail hlt]
      rfl
    rw [if_pos hcontrol]
    simp only [List.cons_append, List.nil_append]
    rw [readStringFrom, if_neg (by decide), if_pos rfl, hescape]
    rfl
  · rw [if_neg hcontrol, List.singleton_append, readStringFrom, if_neg hquote, if_neg hslash,
      if_neg hcontrol]

theorem readStringFrom_flatMap (text done rest : List Char) :
    readStringFrom 0 done (text.flatMap escapeChar ++ '"' :: rest) =
      .ok (String.ofList (done.reverse ++ text), rest) := by
  induction text generalizing done with
  | nil =>
    rw [List.flatMap_nil, List.nil_append, readStringFrom, if_pos rfl, List.append_nil]
  | cons c text ih =>
    rw [List.flatMap_cons, List.append_assoc, readStringFrom_escapeChar, ih, List.reverse_cons,
      List.append_assoc, List.singleton_append]

/-- A quoted string is read back. -/
theorem readString_quote (s : String) (rest : List Char) :
    readString (s.toList.flatMap escapeChar ++ '"' :: rest) = .ok (s, rest) := by
  rw [readString, readStringFrom_flatMap, List.reverse_nil, List.nil_append, String.ofList_toList]

end Schemata.Json
