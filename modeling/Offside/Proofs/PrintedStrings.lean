import Mathlib.Tactic.IntervalCases
import Offside.Json.Printer
import Offside.Json.StringReader

/-!
# Printed strings

Reading undoes escaping, character by character: `readString_escape`. A character beyond the basic
plane is put together again from its two surrogates, and no other character is taken for one.
-/

namespace Offside

/-! ### Hexadecimal digits -/

namespace Text

theorem hexValue?_digitChar {n : Nat} (hn : n < 16) : hexValue? (Nat.digitChar n) = some n := by
  interval_cases n <;> decide

theorem hexNumber?_hexDigits {width n : Nat} (hn : n < 16 ^ width) :
    hexNumber? (hexDigits width n) = some n := by
  induction width generalizing n with
  | zero =>
    have hzero : n = 0 := by omega
    rw [hzero]
    rfl
  | succ width ih =>
    have hfront : hexNumber? (hexDigits width (n / 16)) = some (n / 16) := by
      apply ih
      rw [pow_succ] at hn
      exact Nat.div_lt_of_lt_mul (by rwa [mul_comm])
    have hlast := hexValue?_digitChar (Nat.mod_lt n (by decide : 0 < 16))
    rw [hexNumber?] at hfront ⊢
    rw [hexDigits, List.foldlM_append, hfront]
    simp only [List.foldlM_cons, List.foldlM_nil, hlast, Option.map_some, Option.bind_eq_bind,
      Option.bind_some, Option.pure_def, Option.some.injEq]
    exact Nat.div_add_mod n 16

end Text

namespace Json

/-! ### Code units -/

section Units

variable {next : Char} {rest : List Char}

theorem readUnit?_hexDigits {n : Nat} (hn : n < 0x10000) :
    readUnit? (Text.hexDigits 4 n ++ next :: rest) = some (n, next :: rest) := by
  have hnumber : Text.hexNumber? (Text.hexDigits 4 n) = some n := Text.hexNumber?_hexDigits hn
  obtain ⟨a, b, c, d, hdigits⟩ : ∃ a b c d, Text.hexDigits 4 n = [a, b, c, d] := ⟨_, _, _, _, rfl⟩
  rw [hdigits] at hnumber ⊢
  simp [readUnit?, hnumber]

theorem isUnit_toNat (c : Char) : (isHighUnit c.toNat || isLowUnit c.toNat) = false := by
  have hvalid : c.toNat < 0xD800 ∨ 0xDFFF < c.toNat ∧ c.toNat < 0x110000 := c.valid
  simp only [isHighUnit, isLowUnit, Bool.or_eq_false_iff, Bool.and_eq_false_iff,
    decide_eq_false_iff_not]
  omega

theorem readEscape_codeUnit {c : Char} (hc : c.toNat < 0x10000) :
    readEscape ('u' :: Text.hexDigits 4 c.toNat ++ next :: rest) = .ok (c, next :: rest) := by
  obtain ⟨hhigh, hlow⟩ := Bool.or_eq_false_iff.1 (isUnit_toNat c)
  rw [List.cons_append, readEscape, if_pos rfl, readCodeUnit, readUnit?_hexDigits hc]
  simp [hhigh, hlow, unitChar]

theorem readEscape_pair {high low : Nat} (hhigh : isHighUnit high = true)
    (hlow : isLowUnit low = true) :
    readEscape ('u' :: Text.hexDigits 4 high ++ (codeUnit low ++ next :: rest)) =
      .ok (pairChar high low, next :: rest) := by
  have hhighBound : high < 0x10000 := by
    simp only [isHighUnit, Bool.and_eq_true, decide_eq_true_eq] at hhigh
    omega
  have hlowBound : low < 0x10000 := by
    simp only [isLowUnit, Bool.and_eq_true, decide_eq_true_eq] at hlow
    omega
  rw [codeUnit, List.cons_append, List.cons_append, List.cons_append, readEscape, if_pos rfl,
    readCodeUnit, readUnit?_hexDigits hhighBound]
  simp only [hhigh]
  rw [readUnit?_hexDigits hlowBound]
  simp only [hlow, if_true]

end Units

/-- A character beyond the basic plane is the pair of its two surrogates. -/
theorem pairChar_toNat {c : Char} (hc : 0x10000 ≤ c.toNat) :
    isHighUnit (0xD800 + (c.toNat - 0x10000) / 0x400) = true ∧
      isLowUnit (0xDC00 + (c.toNat - 0x10000) % 0x400) = true ∧
      pairChar (0xD800 + (c.toNat - 0x10000) / 0x400)
        (0xDC00 + (c.toNat - 0x10000) % 0x400) = c := by
  have hvalid : c.toNat < 0xD800 ∨ 0xDFFF < c.toNat ∧ c.toNat < 0x110000 := c.valid
  have hcode : 0x10000 + (0xD800 + (c.toNat - 0x10000) / 0x400 - 0xD800) * 0x400 +
      (0xDC00 + (c.toNat - 0x10000) % 0x400 - 0xDC00) = c.toNat := by
    omega
  refine ⟨?_, ?_, ?_⟩
  · simp only [isHighUnit, Bool.and_eq_true, decide_eq_true_eq]
    omega
  · simp only [isLowUnit, Bool.and_eq_true, decide_eq_true_eq]
    omega
  · rw [pairChar, hcode, Char.ofNat_toNat]

/-! ### Strings -/

theorem readString_of_escape {text after : List Char} {c : Char}
    (h : readEscape text = .ok (c, after)) :
    readString ('\\' :: text) = (readString after).map fun (inner, left) => (c :: inner, left) := by
  rw [readString, if_neg (by decide), if_pos rfl]
  split <;> simp_all

theorem readString_plain {c : Char} {rest : List Char} (hquote : c ≠ '"') (hslash : c ≠ '\\')
    (hplain : 0x20 ≤ c.toNat) :
    readString (c :: rest) = (readString rest).map fun (inner, left) => (c :: inner, left) := by
  rw [readString, if_neg hquote, if_neg hslash, if_neg (Nat.not_lt_of_le hplain)]

theorem readString_escape_append (c next : Char) (rest : List Char) :
    readString (escape c ++ next :: rest) =
      (readString (next :: rest)).map fun (inner, left) => (c :: inner, left) := by
  have hsimple {mark d : Char} (hmark : mark ≠ 'u') (hd : simpleEscape? mark = some d) :
      readString (['\\', mark] ++ next :: rest) =
        (readString (next :: rest)).map fun (inner, left) => (d :: inner, left) := by
    apply readString_of_escape
    change readEscape (mark :: next :: rest) = _
    rw [readEscape, if_neg hmark, hd]
  unfold escape
  by_cases hquoted : c = '"' ∨ c = '\\'
  · rw [if_pos hquoted]
    obtain rfl | rfl := hquoted
    · exact hsimple (by decide) rfl
    · exact hsimple (by decide) rfl
  rw [if_neg hquoted]
  rw [not_or] at hquoted
  by_cases hplain : ' ' ≤ c ∧ c ≤ '~'
  · rw [if_pos hplain]
    exact readString_plain hquoted.1 hquoted.2 hplain.1
  rw [if_neg hplain]
  by_cases hcontrol : c = '\n' ∨ c = '\r' ∨ c = '\t' ∨ c = '\x08' ∨ c = '\x0C'
  · obtain rfl | rfl | rfl | rfl | rfl := hcontrol <;> exact hsimple (by decide) rfl
  simp only [not_or] at hcontrol
  obtain ⟨hnewline, hreturn, htab, hback, hfeed⟩ := hcontrol
  rw [if_neg hnewline, if_neg hreturn, if_neg htab, if_neg hback, if_neg hfeed]
  by_cases hbasic : c.toNat < 0x10000
  · rw [if_pos hbasic]
    exact readString_of_escape (readEscape_codeUnit hbasic)
  · rw [if_neg hbasic]
    obtain ⟨hhigh, hlow, hpair⟩ := pairChar_toNat (Nat.le_of_not_lt hbasic)
    have hescape := @readEscape_pair next rest _ _ hhigh hlow
    rw [hpair] at hescape
    rw [List.append_assoc]
    exact readString_of_escape hescape

/-- Reading undoes escaping, and stops behind the closing quote. -/
theorem readString_escape (text rest : List Char) :
    readString (text.flatMap escape ++ '"' :: rest) = .ok (text, rest) := by
  induction text with
  | nil => rw [List.flatMap_nil, List.nil_append, readString, if_pos rfl]
  | cons c text ih =>
    obtain ⟨next, left, hnext⟩ : ∃ next left,
        text.flatMap escape ++ '"' :: rest = next :: left := by
      apply List.exists_cons_of_ne_nil
      simp
    rw [List.flatMap_cons, List.append_assoc]
    rw [hnext] at ih ⊢
    rw [readString_escape_append, ih]
    rfl

end Json

end Offside
