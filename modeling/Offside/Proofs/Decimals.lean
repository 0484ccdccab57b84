import Mathlib.Algebra.Order.Field.Power
import Mathlib.Algebra.Order.Field.Rat
import Mathlib.Tactic.GCongr
import Mathlib.Tactic.Positivity
import Offside.Json
import Offside.Lexeme

/-!
# Decimal literals

The number of significant digits decides about the size of a number before it is computed, both of
an integer that is too large and of a real that is rounded to zero: `maxInteger_lt_ofDigitChars` and
`Json.underflows_iff`.
-/

namespace Offside

theorem ofDigitChars_dropWhile_zero (digits : List Char) :
    Nat.ofDigitChars 10 (digits.dropWhile (· == '0')) 0 = Nat.ofDigitChars 10 digits 0 := by
  induction digits with
  | nil => rfl
  | cons c digits ih =>
    by_cases hc : c = '0'
    · rw [hc, List.dropWhile_cons_of_pos rfl, ih, Nat.ofDigitChars_cons]
      rfl
    · rw [List.dropWhile_cons_of_neg (by simpa using hc)]

theorem pow_mul_le_ofDigitChars (digits : List Char) (init : Nat) :
    10 ^ digits.length * init ≤ Nat.ofDigitChars 10 digits init := by
  rw [Nat.ofDigitChars_eq_ofDigitChars_zero]
  exact Nat.le_add_right _ _

theorem one_le_of_isDigit {c : Char} (hdigit : Text.isDigit c = true) (hc : c ≠ '0') :
    1 ≤ c.toNat - '0'.toNat := by
  have hle : '0'.toNat ≤ c.toNat := by
    simp only [Text.isDigit, Bool.and_eq_true, decide_eq_true_eq] at hdigit
    exact hdigit.1
  have hne : c.toNat ≠ '0'.toNat := fun h => hc (Char.toNat_inj.1 h)
  omega

/-- More significant digits than the largest integer has are a larger number. -/
theorem maxInteger_lt_ofDigitChars {digits : List Char}
    (hdigits : ∀ c ∈ digits, Text.isDigit c = true)
    (hlong : Lexeme.maxDigits < (digits.dropWhile (· == '0')).length) :
    Lexeme.maxInteger < Nat.ofDigitChars 10 digits 0 := by
  rw [← ofDigitChars_dropWhile_zero]
  cases hsignificant : digits.dropWhile (· == '0') with
  | nil => simp [hsignificant] at hlong
  | cons c rest =>
    have hc : c ≠ '0' := by
      have hhead := List.head?_dropWhile_not (· == '0') digits
      rw [hsignificant] at hhead
      simpa using hhead
    have hvalue : 1 ≤ c.toNat - '0'.toNat := by
      refine one_le_of_isDigit (hdigits c ?_) hc
      exact (List.dropWhile_sublist _).subset (hsignificant ▸ List.mem_cons_self)
    have hlength : 19 ≤ rest.length := by
      rw [hsignificant] at hlong
      exact Nat.le_of_lt_succ hlong
    rw [Nat.ofDigitChars_cons]
    calc Lexeme.maxInteger < 10 ^ 19 := by decide
      _ ≤ 10 ^ rest.length * 1 := by
        rw [mul_one]
        exact Nat.pow_le_pow_right (by decide) hlength
      _ ≤ 10 ^ rest.length * (10 * 0 + (c.toNat - '0'.toNat)) := by
        gcongr
        omega
      _ ≤ Nat.ofDigitChars 10 rest (10 * 0 + (c.toNat - '0'.toNat)) := pow_mul_le_ofDigitChars _ _

theorem classifyInteger_cases {distinguish : Bool} {digits : List Char} {reading : Lexeme.Reading}
    (h : Lexeme.classifyInteger distinguish digits = .ok reading) :
    Nat.ofDigitChars 10 digits 0 ≤ Lexeme.maxInteger ∧
        reading = .token .integer (.number (Nat.ofDigitChars 10 digits 0)) ∨
      reading = Lexeme.overflow distinguish digits := by
  rw [Lexeme.classifyInteger] at h
  split at h
  · exact .inr (Except.ok.inj h).symm
  · rw [Text.number?] at h
    split at h
    · have hreading := Except.ok.inj h
      dsimp only at hreading
      split at hreading
      · exact .inl ⟨‹_›, hreading.symm⟩
      · exact .inr hreading.symm
    · cases h

/-! ### Reals -/

namespace Json

theorem two_pow_le_ten_pow : 2 ^ leastPower ≤ 10 ^ 324 := by decide +kernel

theorem underflows_iff_mul_le {digits : Nat} {exponent : Int} :
    underflows digits exponent = true ↔ digits * 2 ^ leastPower ≤ 10 ^ (-exponent).toNat := by
  have hpow (base n : Nat) : Nat.pow base n = base ^ n := rfl
  rw [underflows, Bool.or_eq_true, decide_eq_true_iff, decide_eq_true_iff, hpow, hpow,
    or_iff_right_iff_imp]
  intro hshort
  have hdigits : digits < 10 ^ (Nat.toDigits 10 digits).length :=
    (Nat.length_toDigits_le_iff (by decide) Nat.length_toDigits_pos).1 le_rfl
  calc digits * 2 ^ leastPower ≤ 10 ^ (Nat.toDigits 10 digits).length * 10 ^ 324 :=
        Nat.mul_le_mul hdigits.le two_pow_le_ten_pow
    _ = 10 ^ ((Nat.toDigits 10 digits).length + 324) := (pow_add ..).symm
    _ ≤ 10 ^ (-exponent).toNat := Nat.pow_le_pow_right (by decide) hshort

theorem mul_zpow_le_one_div_iff {digits power : Nat} (hpower : power ≠ 0) (exponent : Int) :
    (digits : ℚ) * 10 ^ exponent ≤ 1 / 2 ^ power ↔
      digits * 2 ^ power ≤ 10 ^ (-exponent).toNat := by
  rw [le_div_iff₀ (by positivity)]
  obtain ⟨places, rfl | rfl⟩ := exponent.eq_nat_or_neg
  · have hplaces : (-(places : Int)).toNat = 0 := by omega
    rw [zpow_natCast, hplaces, pow_zero]
    norm_cast
    -- A whole number that is no larger than a half is zero.
    obtain rfl | hpos := digits.eq_zero_or_pos
    · simp only [zero_mul]
    · have hone : 1 < 2 ^ power := Nat.one_lt_two_pow hpower
      have hten : 0 < digits * 10 ^ places := by positivity
      exact iff_of_false (Nat.not_le.2 (lt_of_lt_of_le hone (Nat.le_mul_of_pos_left _ hten)))
        (Nat.not_le.2 (lt_of_lt_of_le hone (Nat.le_mul_of_pos_left _ hpos)))
  · rw [neg_neg, Int.toNat_natCast, zpow_neg, zpow_natCast, mul_right_comm, ← div_eq_mul_inv,
      div_le_one (by positivity)]
    norm_cast

/-- A real counts as zero if it is at most half as large as the least one that is stored. -/
theorem underflows_iff {digits : Nat} {exponent : Int} :
    underflows digits exponent = true ↔ (digits : ℚ) * 10 ^ exponent ≤ 1 / 2 ^ leastPower :=
  underflows_iff_mul_le.trans (mul_zpow_le_one_div_iff (by decide +kernel) exponent).symm

example : (real "1e-400").isTruthy = false ∧ (real "5e-324").isTruthy = true := by decide +kernel

end Json

end Offside
