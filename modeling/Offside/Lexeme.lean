import Offside.Entry
import Offside.Text.Decimal

/-!
# Lexemes

The first character of a text decides how far its first lexeme reaches, and the lexeme decides what
entry it makes.
-/

namespace Offside

def isBlank (c : Char) : Bool :=
  c == ' ' || c == '\t'

/-- Letters are those of ASCII. -/
def isLetter (c : Char) : Bool :=
  ('a' ≤ c && c ≤ 'z') || ('A' ≤ c && c ≤ 'Z')

/-- What a newline takes with it: blank lines and the blanks that the next line begins with. -/
def isLayout (c : Char) : Bool :=
  isBlank c || c == '\n'

section Classes

variable {c : Char}

theorem isLayout_of_isBlank (h : isBlank c = true) : isLayout c = true := by
  rw [isLayout, h, Bool.true_or]

theorem isBlank_of_isLayout (h : isLayout c = true) (hc : c ≠ '\n') : isBlank c = true := by
  simpa [isLayout, hc] using h

theorem eq_newline_of_isLayout (h : isLayout c = true) (hblank : isBlank c = false) : c = '\n' := by
  simpa [isLayout, hblank] using h

theorem isLayout_eq_false_iff : isLayout c = false ↔ isBlank c = false ∧ c ≠ '\n' := by
  simp [isLayout]

theorem isLetter_of_isDigit (h : Text.isDigit c = true) : isLetter c = false := by
  simp only [Text.isDigit, isLetter, Bool.and_eq_true, Bool.or_eq_false_iff, Bool.and_eq_false_iff,
    decide_eq_true_eq, decide_eq_false_iff_not, Char.le_def, UInt32.le_iff_toNat_le] at h ⊢
  have hnine : '9'.val.toNat < 'A'.val.toNat := by decide
  have hcase : 'A'.val.toNat < 'a'.val.toNat := by decide
  omega

theorem isDigit_of_isLetter (h : isLetter c = true) : Text.isDigit c = false := by
  cases hdigit : Text.isDigit c with
  | false => rfl
  | true =>
    rw [isLetter_of_isDigit hdigit] at h
    cases h

theorem isLetter_of_isLayout (h : isLayout c = true) : isLetter c = false := by
  simp only [isLayout, isBlank, Bool.or_eq_true, beq_iff_eq] at h
  obtain (rfl | rfl) | rfl := h
  all_goals rfl

theorem isDigit_of_isLayout (h : isLayout c = true) : Text.isDigit c = false := by
  simp only [isLayout, isBlank, Bool.or_eq_true, beq_iff_eq] at h
  obtain (rfl | rfl) | rfl := h
  all_goals rfl

theorem isLayout_of_isLetter (h : isLetter c = true) : isLayout c = false := by
  cases hlayout : isLayout c with
  | false => rfl
  | true =>
    rw [isLetter_of_isLayout hlayout] at h
    cases h

theorem isLayout_of_isDigit (h : Text.isDigit c = true) : isLayout c = false := by
  cases hlayout : isLayout c with
  | false => rfl
  | true =>
    rw [isDigit_of_isLayout hlayout] at h
    cases h

theorem isDigit_of_isBlank (h : isBlank c = true) : Text.isDigit c = false :=
  isDigit_of_isLayout (isLayout_of_isBlank h)

/-- The classes of characters whose runs are lexemes. -/
inductive IsClass : (Char → Bool) → Prop where
  | layout : IsClass isLayout
  | letter : IsClass isLetter
  | digit : IsClass Text.isDigit

theorem IsClass.unique {p q : Char → Bool} (hp : IsClass p) (hq : IsClass q) (hpc : p c = true)
    (hqc : q c = true) : p = q := by
  have hletter := isDigit_of_isLetter (c := c)
  have hlayout := isLetter_of_isLayout (c := c)
  have hlayout' := isDigit_of_isLayout (c := c)
  cases hp <;> cases hq <;> simp_all

end Classes

theorem eq_false_of_mem_head?_dropWhile {p : Char → Bool} {text : List Char} {c : Char}
    (hc : c ∈ (text.dropWhile p).head?) : p c = false := by
  have hhead := List.head?_dropWhile_not p text
  rw [Option.mem_def.1 hc] at hhead
  simpa using hhead

namespace Lexeme

/-- The longest lexeme that begins with `first`, and what follows it. -/
def munch (first : Char) (rest : List Char) : List Char × List Char :=
  if first = '\n' then (first :: rest.takeWhile isLayout, rest.dropWhile isLayout)
  else if isLetter first then (first :: rest.takeWhile isLetter, rest.dropWhile isLetter)
  else if Text.isDigit first then
    (first :: rest.takeWhile Text.isDigit, rest.dropWhile Text.isDigit)
  else if first = '-' ∧ rest.head? = some '>' then (['-', '>'], rest.tail)
  else ([first], rest)

theorem munch_newline (rest : List Char) :
    munch '\n' rest = ('\n' :: rest.takeWhile isLayout, rest.dropWhile isLayout) := by
  rw [munch, if_pos rfl]

theorem munch_append (first : Char) (rest : List Char) :
    (munch first rest).1 ++ (munch first rest).2 = first :: rest := by
  unfold munch
  repeat' split
  · simp
  · simp
  · simp
  · rename_i h
    obtain ⟨rfl, hhead⟩ := h
    obtain ⟨tail, rfl⟩ := List.head?_eq_some_iff.1 hhead
    simp
  · simp

theorem munch_ne_nil (first : Char) (rest : List Char) : (munch first rest).1 ≠ [] := by
  unfold munch
  repeat' split
  all_goals simp

theorem munch_length (first : Char) (rest : List Char) :
    (munch first rest).2.length ≤ rest.length := by
  have hall := congrArg List.length (munch_append first rest)
  have hpos := List.length_pos_iff.2 (munch_ne_nil first rest)
  simp only [List.length_append, List.length_cons] at hall
  omega

/-- An entry that has not been placed. -/
inductive Reading where
  | token (kind : TokenKind) (value : Payload)
  | error (kind : ErrorKind) (text : String)
  deriving DecidableEq, Repr

def Reading.entry (span : Span) : Reading → Entry
  | token kind value => .token ⟨kind, span, value⟩
  | error kind text => .error ⟨kind, span, text⟩

def classifyWord (word : List Char) : Reading :=
  if word = ['d', 'e', 'f'] then .token .defKeyword .nothing
  else if word = ['r', 'e', 't', 'u', 'r', 'n'] then .token .returnKeyword .nothing
  else .token .identifier (.text (String.ofList word))

/-- The largest number that an integer token carries. -/
def maxInteger : Nat := 0x7FFFFFFFFFFFFFFF

/-- The number of digits of the largest integer. -/
def maxDigits : Nat := 19

def overflow (distinguish : Bool) (digits : List Char) : Reading :=
  .error (if distinguish then .integerOverflow else .unrecognizedToken) (String.ofList digits)

/-- A literal that has too many digits, leading zeros aside, is not converted. -/
def classifyInteger (distinguish : Bool) (digits : List Char) :
    Except Text.TooManyDigits Reading :=
  if maxDigits < (digits.dropWhile (· == '0')).length then .ok (overflow distinguish digits)
  else
    (Text.number? digits).map fun n =>
      if n ≤ maxInteger then .token .integer (.number n) else overflow distinguish digits

def classifyPunctuation (lexeme : List Char) : Reading :=
  if lexeme = ['-', '>'] then .token .arrow .nothing
  else if lexeme = ['('] then .token .leftParen .nothing
  else if lexeme = [')'] then .token .rightParen .nothing
  else if lexeme = [':'] then .token .colon .nothing
  else .error .unrecognizedToken (String.ofList lexeme)

/-- Reads a lexeme that begins with `first`. -/
def classify (distinguish : Bool) (first : Char) (lexeme : List Char) :
    Except Text.TooManyDigits Reading :=
  if first = '\n' then .ok (.token .newline (.text (String.ofList lexeme)))
  else if isLetter first then .ok (classifyWord lexeme)
  else if Text.isDigit first then classifyInteger distinguish lexeme
  else .ok (classifyPunctuation lexeme)

end Lexeme

end Offside
