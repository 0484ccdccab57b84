import Mathlib.Computability.RegularExpressions
import Mathlib.Data.Nat.Find
import Offside.Lexeme

/-!
# The lexical grammar

The patterns of the language as regular expressions, and the words that they match. A literal
matches itself. Every other pattern matches the runs of characters that begin in one class and go on
in another, a newline with its blank lines included: `matches_newline` takes the nested repetition
of that pattern apart. `reach_literal` and `reach_run` tell how far a pattern reaches into a text.
-/

namespace Offside

open RegularExpression
open scoped Computability

/-! ### Languages of single characters -/

def singles (p : Char → Prop) : Language Char :=
  {word | ∃ c, p c ∧ word = [c]}

theorem mem_singles {p : Char → Prop} {word : List Char} :
    word ∈ singles p ↔ ∃ c, p c ∧ word = [c] :=
  Iff.rfl

theorem singles_add (p q : Char → Prop) : singles p + singles q = singles fun c => p c ∨ q c := by
  ext word
  rw [Language.mem_add, mem_singles, mem_singles, mem_singles]
  constructor
  · rintro (⟨c, hc, rfl⟩ | ⟨c, hc, rfl⟩)
    · exact ⟨c, .inl hc, rfl⟩
    · exact ⟨c, .inr hc, rfl⟩
  · rintro ⟨c, hc | hc, rfl⟩
    · exact .inl ⟨c, hc, rfl⟩
    · exact .inr ⟨c, hc, rfl⟩

theorem mem_kstar_singles {p : Char → Prop} {word : List Char} :
    word ∈ (singles p)∗ ↔ ∀ c ∈ word, p c := by
  rw [Language.mem_kstar]
  constructor
  · rintro ⟨words, rfl, hwords⟩ c hc
    obtain ⟨single, hsingle, hmem⟩ := List.mem_flatten.1 hc
    obtain ⟨d, hd, rfl⟩ := hwords single hsingle
    rwa [List.mem_singleton.1 hmem]
  · intro hword
    refine ⟨word.map fun c => [c], (List.flatMap_singleton' word).symm, ?_⟩
    intro single hsingle
    obtain ⟨c, hc, rfl⟩ := List.mem_map.1 hsingle
    exact ⟨c, hword c hc, rfl⟩

theorem mem_singles_mul {p : Char → Prop} {language : Language Char} {word : List Char} :
    word ∈ singles p * language ↔ ∃ c rest, word = c :: rest ∧ p c ∧ rest ∈ language := by
  rw [Language.mem_mul]
  constructor
  · rintro ⟨single, ⟨c, hc, rfl⟩, rest, hrest, rfl⟩
    exact ⟨c, rest, rfl, hc, hrest⟩
  · rintro ⟨c, rest, rfl, hc, hrest⟩
    exact ⟨[c], ⟨c, hc, rfl⟩, rest, hrest, rfl⟩

theorem kstar_add {K : Type} [KleeneAlgebra K] (a b : K) : (a + b)∗ = (a∗ * b)∗ * a∗ := by
  apply le_antisymm
  · apply kstar_le_of_mul_le_left
    · exact one_le_mul one_le_kstar one_le_kstar
    · rw [mul_add, add_le_iff]
      constructor
      · rw [mul_assoc]
        gcongr
        exact kstar_mul_le_kstar
      · calc (a∗ * b)∗ * a∗ * b = (a∗ * b)∗ * (a∗ * b) := mul_assoc _ _ _
          _ ≤ (a∗ * b)∗ := kstar_mul_le_kstar
          _ = (a∗ * b)∗ * 1 := (mul_one _).symm
          _ ≤ (a∗ * b)∗ * a∗ := by
            gcongr
            exact one_le_kstar
  · have ha : a∗ ≤ (a + b)∗ := kstar_mono (by simp)
    have hb : b ≤ (a + b)∗ := le_trans (by simp) (le_kstar (a := a + b))
    have hab : (a∗ * b)∗ ≤ (a + b)∗ := by
      rw [← kstar_idem (a + b), ← kstar_mul_kstar (a + b)]
      exact kstar_mono (mul_le_mul' ha hb)
    calc (a∗ * b)∗ * a∗ ≤ (a + b)∗ * (a + b)∗ := mul_le_mul' hab ha
      _ = (a + b)∗ := kstar_mul_kstar (a + b)

/-! ### Expressions -/

def between (first last : Char) : RegularExpression Char :=
  ((List.range (last.toNat + 1 - first.toNat)).map fun i =>
    RegularExpression.char (Char.ofNat (first.toNat + i))).sum

def oneOrMore (expression : RegularExpression Char) : RegularExpression Char :=
  expression * expression.star

def letter : RegularExpression Char :=
  between 'A' 'Z' + between 'a' 'z'

def digit : RegularExpression Char :=
  between '0' '9'

def blank : RegularExpression Char :=
  char ' ' + char '\t'

inductive Pattern where
  | literal (text : List Char) (kind : TokenKind)
  | identifier
  | integer
  | newline
  deriving DecidableEq, Repr

namespace Pattern

/-- The lexemes that are one word only, with the kinds of their tokens. -/
def literals : List (List Char × TokenKind) :=
  [("def".toList, .defKeyword), ("return".toList, .returnKeyword), ("(".toList, .leftParen),
    (")".toList, .rightParen), ("->".toList, .arrow), (":".toList, .colon)]

/-- All patterns. The keywords stand before the identifiers, so that they win at equal length. -/
def all : List Pattern :=
  (literals.map fun entry => literal entry.1 entry.2) ++ [identifier, integer, newline]

def expression : Pattern → RegularExpression Char
  | literal text _ => (text.map RegularExpression.char).prod
  | identifier => oneOrMore letter
  | integer => oneOrMore digit
  | newline => char '\n' * ((blank.star * char '\n').star * blank.star)

/-- How far a pattern reaches into a text: the length of the longest prefix that it matches. -/
def reach (pattern : Pattern) (text : List Char) : Nat :=
  Nat.findGreatest (fun n => pattern.expression.rmatch (text.take n)) text.length

end Pattern

/-! ### What the expressions match -/

theorem mem_matches_sum {expressions : List (RegularExpression Char)} {word : List Char} :
    word ∈ expressions.sum.matches' ↔ ∃ expression ∈ expressions, word ∈ expression.matches' := by
  induction expressions with
  | nil => simp [Language.notMem_zero]
  | cons expression expressions ih =>
    rw [List.sum_cons, matches'_add, Language.mem_add, ih]
    simp

theorem mem_matches_literal {text word : List Char} :
    word ∈ ((text.map RegularExpression.char).prod).matches' ↔ word = text := by
  induction text generalizing word with
  | nil => simp [Language.mem_one]
  | cons c text ih =>
    rw [List.map_cons, List.prod_cons, matches'_mul, matches'_char, Language.mem_mul]
    constructor
    · rintro ⟨single, rfl, rest, hrest, rfl⟩
      rw [ih.1 hrest]
      rfl
    · rintro rfl
      exact ⟨[c], rfl, text, ih.2 rfl, rfl⟩

theorem toNat_ofNat_of_isValidChar {n : Nat} (h : n.isValidChar) : (Char.ofNat n).toNat = n := by
  rw [Char.ofNat, dif_pos h]
  rfl

/-- Code points below the surrogates have no gap, so no character between the two is left out. -/
theorem matches_between {first last : Char} (hlast : last.toNat < 0xD800) :
    (between first last).matches' = singles fun c => first ≤ c ∧ c ≤ last := by
  ext word
  rw [between, mem_matches_sum, mem_singles]
  constructor
  · rintro ⟨expression, hmem, hword⟩
    obtain ⟨i, hi, rfl⟩ := List.mem_map.1 hmem
    have hlt := List.mem_range.1 hi
    have hvalid : (first.toNat + i).isValidChar := .inl (by omega)
    have htoNat := toNat_ofNat_of_isValidChar hvalid
    refine ⟨Char.ofNat (first.toNat + i), ?_, hword⟩
    change first.toNat ≤ (Char.ofNat (first.toNat + i)).toNat ∧
      (Char.ofNat (first.toNat + i)).toNat ≤ last.toNat
    omega
  · rintro ⟨c, ⟨hfirst, hle⟩, rfl⟩
    have hfirst' : first.toNat ≤ c.toNat := hfirst
    have hle' : c.toNat ≤ last.toNat := hle
    refine ⟨_, List.mem_map.2 ⟨c.toNat - first.toNat, List.mem_range.2 (by omega), rfl⟩, ?_⟩
    rw [Nat.add_sub_cancel' hfirst', Char.ofNat_toNat]
    rfl

theorem matches_letter : letter.matches' = singles fun c => isLetter c = true := by
  rw [letter, matches'_add, matches_between (by decide), matches_between (by decide), singles_add]
  congr 1
  funext c
  simp [isLetter, or_comm]

theorem matches_digit : digit.matches' = singles fun c => Text.isDigit c = true := by
  rw [digit, matches_between (by decide)]
  congr 1
  funext c
  simp [Text.isDigit]

theorem matches_char (c : Char) : (char c).matches' = singles fun d => d = c := by
  ext word
  rw [matches'_char, mem_singles]
  constructor
  · rintro rfl
    exact ⟨c, rfl, rfl⟩
  · rintro ⟨d, rfl, rfl⟩
    rfl

theorem matches_blank : blank.matches' = singles fun c => isBlank c = true := by
  rw [blank, matches'_add, matches_char, matches_char, singles_add]
  congr 1
  funext c
  simp [isBlank]

/-- A word that begins with a character of one class and goes on with characters of another. -/
def IsRun (first more : Char → Bool) (word : List Char) : Prop :=
  ∃ c rest, word = c :: rest ∧ first c = true ∧ ∀ d ∈ rest, more d = true

theorem mem_matches_oneOrMore {expression : RegularExpression Char} {p : Char → Bool}
    (h : expression.matches' = singles fun c => p c = true) {word : List Char} :
    word ∈ (oneOrMore expression).matches' ↔ IsRun p p word := by
  rw [oneOrMore, matches'_mul, matches'_star, h, mem_singles_mul]
  simp only [mem_kstar_singles, IsRun]

/-- Blank lines in any number and then blanks are blanks and newlines in any order. -/
theorem matches_newline :
    ((blank.star * char '\n').star * blank.star).matches' =
      (singles fun c => isLayout c = true)∗ := by
  rw [matches'_mul, matches'_star, matches'_mul, matches'_star, ← kstar_add, matches_blank,
    matches_char, singles_add]
  congr 2
  funext c
  simp [isLayout]

theorem mem_matches_newline {word : List Char} :
    word ∈ Pattern.newline.expression.matches' ↔ IsRun (· == '\n') isLayout word := by
  rw [Pattern.expression, matches'_mul, matches_newline, matches_char, mem_singles_mul]
  simp only [mem_kstar_singles, IsRun, beq_iff_eq]

/-! ### How far the patterns reach -/

theorem Pattern.reach_literal (word text : List Char) (kind : TokenKind) :
    (literal word kind).reach text = if word <+: text then word.length else 0 := by
  rw [reach, Nat.findGreatest_eq_iff]
  simp only [rmatch_iff_matches', expression, mem_matches_literal]
  split
  · rename_i hpre
    refine ⟨hpre.length_le, fun _ => (List.prefix_iff_eq_take.1 hpre).symm, ?_⟩
    intro n hlt hle htake
    rw [← htake, List.length_take] at hlt
    omega
  · rename_i hpre
    refine ⟨Nat.zero_le _, fun h => absurd rfl h, ?_⟩
    intro n _ _ htake
    exact hpre (htake ▸ List.take_prefix n text)

theorem length_le_length_takeWhile {p : Char → Bool} {n : Nat} {text : List Char}
    (hle : n ≤ text.length) (h : ∀ c ∈ text.take n, p c = true) :
    n ≤ (text.takeWhile p).length := by
  induction text generalizing n with
  | nil => exact hle
  | cons c text ih =>
    cases n with
    | zero => exact Nat.zero_le _
    | succ n =>
      rw [List.take_succ_cons, List.forall_mem_cons] at h
      rw [List.takeWhile_cons_of_pos h.1, List.length_cons]
      exact Nat.succ_le_succ (ih (Nat.le_of_succ_le_succ hle) h.2)

theorem Pattern.reach_run {pattern : Pattern} {p q : Char → Bool}
    (h : ∀ word, word ∈ pattern.expression.matches' ↔ IsRun p q word) (c : Char)
    (rest : List Char) :
    pattern.reach (c :: rest) = if p c then (rest.takeWhile q).length + 1 else 0 := by
  have hmatch (n : Nat) : pattern.expression.rmatch ((c :: rest).take (n + 1)) = true ↔
      p c = true ∧ ∀ d ∈ rest.take n, q d = true := by
    rw [rmatch_iff_matches', h, IsRun, List.take_succ_cons]
    constructor
    · rintro ⟨d, tail, hcons, hd, htail⟩
      obtain ⟨rfl, rfl⟩ := List.cons.inj hcons
      exact ⟨hd, htail⟩
    · rintro ⟨hc, htail⟩
      exact ⟨c, rest.take n, rfl, hc, htail⟩
  rw [reach, Nat.findGreatest_eq_iff]
  split
  · rename_i hc
    refine ⟨Nat.succ_le_succ (List.takeWhile_sublist q).length_le, fun _ => ?_, ?_⟩
    · refine (hmatch _).2 ⟨hc, ?_⟩
      rw [← List.prefix_iff_eq_take.1 (List.takeWhile_prefix q)]
      exact fun d hd => List.all_eq_true.1 List.all_takeWhile d hd
    · intro n hlt hle hn
      obtain ⟨k, rfl⟩ := Nat.exists_eq_succ_of_ne_zero (Nat.ne_zero_of_lt hlt)
      have := length_le_length_takeWhile (Nat.le_of_succ_le_succ hle) ((hmatch k).1 hn).2
      omega
  · rename_i hc
    refine ⟨Nat.zero_le _, fun h => absurd rfl h, ?_⟩
    intro n hlt _ hn
    obtain ⟨k, rfl⟩ := Nat.exists_eq_succ_of_ne_zero (Nat.ne_zero_of_lt hlt)
    exact hc ((hmatch k).1 hn).1

end Offside
