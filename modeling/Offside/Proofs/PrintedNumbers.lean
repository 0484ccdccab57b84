import Mathlib.Tactic.IntervalCases
import Offside.Json.Printer
import Offside.Json.Reader

/-!
# Printed integers

Reading an integer gives back the number that was printed, as long as it is not over the limit on
digits and the text behind it does not go on with a number: `readNumber?_int`.
-/

namespace Offside

namespace Text

/-- A number that is read back from its digits. -/
def Convertible (n : Nat) : Prop :=
  (Nat.toDigits 10 n).length ≤ digitLimit

instance (n : Nat) : Decidable (Convertible n) :=
  inferInstanceAs (Decidable (_ ≤ _))

theorem convertible_iff {n : Nat} : Convertible n ↔ n < 10 ^ digitLimit :=
  Nat.length_toDigits_le_iff (by decide) (by decide)

theorem isWritable_iff {n : Int} : isWritable n = true ↔ Convertible n.natAbs :=
  decide_eq_true_iff

theorem not_convertible_limit : ¬Convertible (10 ^ digitLimit : Int).natAbs := by
  have hten : (10 : Int).natAbs = 10 := rfl
  rw [convertible_iff, Int.natAbs_pow, hten]
  exact Nat.lt_irrefl _

theorem isDigit_of_mem_toDigits {n : Nat} {c : Char} (hc : c ∈ Nat.toDigits 10 n) :
    isDigit c = true := by
  have hdigit := Nat.isDigit_of_mem_toDigits (by decide) (by decide) hc
  exact hdigit

theorem toDigits_cons (n : Nat) :
    ∃ c rest, Nat.toDigits 10 n = c :: rest ∧ isDigit c = true := by
  obtain ⟨c, rest, hdigits⟩ := List.exists_cons_of_ne_nil (Nat.toDigits_ne_nil (n := n) (b := 10))
  exact ⟨c, rest, hdigits, isDigit_of_mem_toDigits (hdigits ▸ List.mem_cons_self)⟩

theorem ne_of_isDigit {c d : Char} (hc : isDigit c = true) (hd : isDigit d = false) : c ≠ d := by
  rintro rfl
  rw [hc] at hd
  cases hd

theorem number?_toDigits {n : Nat} (hn : Convertible n) :
    number? (Nat.toDigits 10 n) = .ok n := by
  unfold Convertible at hn
  rw [number?, if_pos hn, Nat.ofDigitChars_ten_toDigits]

end Text

namespace Json

theorem toDigits_head {n : Nat} (hn : 0 < n) :
    ∃ c rest, Nat.toDigits 10 n = c :: rest ∧ isNonzeroDigit c = true := by
  induction n using Nat.strongRecOn with
  | ind n ih =>
    by_cases hsmall : n < 10
    · rw [Nat.toDigits_of_lt_base hsmall]
      refine ⟨_, _, rfl, ?_⟩
      interval_cases n <;> decide
    · have hlarge : 10 ≤ n := Nat.le_of_not_lt hsmall
      obtain ⟨c, rest, hdigits, hc⟩ := ih (n / 10) (Nat.div_lt_self hn (by decide)) (by omega)
      rw [Nat.toDigits_of_base_le (by decide) hlarge, hdigits]
      exact ⟨c, _, rfl, hc⟩

/-- A text that does not go on with a number. -/
def EndsNumber (rest : List Char) : Prop :=
  ∀ c ∈ rest.head?, Text.isDigit c = false ∧ c ≠ '.' ∧ c ≠ 'e' ∧ c ≠ 'E'

variable {rest : List Char}

theorem EndsNumber.fraction_eq (hrest : EndsNumber rest) : fraction rest = ([], rest) := by
  unfold fraction
  split
  · exact absurd rfl (hrest '.' rfl).2.1
  · rfl

theorem EndsNumber.exponent_eq (hrest : EndsNumber rest) : exponent rest = ([], rest) := by
  cases rest with
  | nil => rfl
  | cons c rest =>
    obtain ⟨-, -, hlower, hupper⟩ := hrest c rfl
    simp [exponent, hlower, hupper]

theorem EndsNumber.digits_append (hrest : EndsNumber rest) {digits : List Char}
    (hdigits : ∀ c ∈ digits, Text.isDigit c = true) :
    (digits ++ rest).takeWhile Text.isDigit = digits ∧
      (digits ++ rest).dropWhile Text.isDigit = rest := by
  rw [List.takeWhile_append_of_pos hdigits, List.dropWhile_append_of_pos hdigits]
  cases rest with
  | nil => exact ⟨List.append_nil digits, rfl⟩
  | cons c rest => simp [(hrest c rfl).1]

theorem wholePart?_toDigits (n : Nat) (hrest : EndsNumber rest) :
    wholePart? (Nat.toDigits 10 n ++ rest) = some (Nat.toDigits 10 n, rest) := by
  obtain rfl | hn := Nat.eq_zero_or_pos n
  · simp [wholePart?, isNonzeroDigit]
  · obtain ⟨c, digits, hdigits, hc⟩ := toDigits_head hn
    have htail : ∀ d ∈ digits, Text.isDigit d = true := by
      intro d hd
      apply Text.isDigit_of_mem_toDigits
      rw [hdigits]
      exact List.mem_cons_of_mem c hd
    obtain ⟨htake, hdrop⟩ := hrest.digits_append htail
    rw [hdigits, List.cons_append, wholePart?, if_pos hc, htake, hdrop]

theorem readMagnitude?_toDigits {n : Nat} (negative : Bool) (hn : Text.Convertible n)
    (hrest : EndsNumber rest) :
    readMagnitude? negative (Nat.toDigits 10 n ++ rest) =
      some (.ok (int (if negative then -n else n)), rest) := by
  rw [readMagnitude?, wholePart?_toDigits n hrest, Option.map_some]
  simp only [hrest.fraction_eq, hrest.exponent_eq, List.isEmpty_nil, Bool.and_self, if_true,
    Text.number?_toDigits hn]
  rfl

theorem toString_of_nonneg {n : Int} (hn : 0 ≤ n) :
    (toString n).toList = Nat.toDigits 10 n.natAbs := by
  have habs : n.toNat = n.natAbs := by omega
  rw [Int.toString_eq_repr, Int.repr_eq_if, if_pos hn, Nat.toList_repr, habs]

theorem toString_of_neg {n : Int} (hn : n < 0) :
    (toString n).toList = '-' :: Nat.toDigits 10 n.natAbs := by
  have habs : (-n).toNat = n.natAbs := by omega
  rw [Int.toString_eq_repr, Int.repr_eq_if, if_neg (Int.not_le.mpr hn), String.toList_append,
    Nat.toList_repr, habs]
  rfl

theorem isDigit_or_eq_of_mem_toString {n : Int} {c : Char} (hc : c ∈ (toString n).toList) :
    Text.isDigit c = true ∨ c = '-' := by
  by_cases hsign : n < 0
  · rw [toString_of_neg hsign, List.mem_cons] at hc
    obtain hminus | hdigit := hc
    · exact .inr hminus
    · exact .inl (Text.isDigit_of_mem_toDigits hdigit)
  · rw [toString_of_nonneg (Int.not_lt.mp hsign)] at hc
    exact .inl (Text.isDigit_of_mem_toDigits hc)

theorem readNumber?_int {n : Int} (hn : Text.Convertible n.natAbs) (hrest : EndsNumber rest) :
    readNumber? ((toString n).toList ++ rest) = some (.ok (int n), rest) := by
  by_cases hsign : n < 0
  · have hvalue : -(n.natAbs : Int) = n := by omega
    rw [toString_of_neg hsign, List.cons_append, readNumber?,
      readMagnitude?_toDigits true hn hrest, if_pos rfl, hvalue]
  · have hnonneg : 0 ≤ n := Int.not_lt.mp hsign
    have hvalue : (n.natAbs : Int) = n := by omega
    have hread := readMagnitude?_toDigits false hn hrest
    obtain ⟨c, digits, hdigits, hc⟩ := Text.toDigits_cons n.natAbs
    have hminus : c ≠ '-' := Text.ne_of_isDigit hc rfl
    rw [toString_of_nonneg hnonneg]
    rw [hdigits, List.cons_append] at hread ⊢
    rw [readNumber?, hread, if_neg (by decide), hvalue]
    intro tail htail
    exact hminus (List.cons.inj htail).1

theorem int_head (n : Int) :
    ∃ c tail, (toString n).toList = c :: tail ∧
      (Text.isDigit c = true ∨ c = '-' ∧ ∃ d ∈ tail.head?, Text.isDigit d = true) := by
  obtain ⟨c, digits, hdigits, hc⟩ := Text.toDigits_cons n.natAbs
  by_cases hsign : n < 0
  · rw [toString_of_neg hsign, hdigits]
    exact ⟨_, _, rfl, .inr ⟨rfl, c, rfl, hc⟩⟩
  · rw [toString_of_nonneg (Int.not_lt.mp hsign), hdigits]
    exact ⟨_, _, rfl, .inl hc⟩

theorem words_head {word : List Char × Json} (hword : word ∈ words) :
    ∃ c d tail, word.1 = c :: d :: tail ∧ Text.isDigit c = false ∧ Text.isDigit d = false := by
  simp only [words, List.mem_cons, List.not_mem_nil, or_false] at hword
  obtain rfl | rfl | rfl | rfl | rfl | rfl := hword <;>
    exact ⟨_, _, _, rfl, by decide, by decide⟩

theorem readWord?_int (n : Int) : readWord? ((toString n).toList ++ rest) = none := by
  obtain ⟨c, tail, htext, hhead⟩ := int_head n
  rw [htext, List.cons_append, readWord?, List.findSome?_eq_none_iff]
  intro word hword
  obtain ⟨first, second, others, hfirst, hdigit, hdigit'⟩ := words_head hword
  have hpre : word.1.isPrefixOf (c :: (tail ++ rest)) = false := by
    obtain hc | ⟨rfl, d, hd, hnext⟩ := hhead
    · have hne : first ≠ c := (Text.ne_of_isDigit hc hdigit).symm
      simp [hfirst, List.isPrefixOf, hne]
    · obtain ⟨digits, rfl⟩ := List.head?_eq_some_iff.1 hd
      have hne : second ≠ d := (Text.ne_of_isDigit hnext hdigit').symm
      simp [hfirst, List.isPrefixOf, hne]
  simp [hpre]

end Json

end Offside
