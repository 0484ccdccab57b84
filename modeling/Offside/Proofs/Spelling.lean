import Mathlib.Tactic.SplitIfs
import Offside.Proofs.Decimals
import Offside.Proofs.LexicalGrammar

/-!
# Spelling

An entry tells the lexeme that it stands for, up to the digits of an integer. `spelled_of_classify`
says that what a lexeme makes is spelled by it, so whatever holds of all spelled entries holds of
all that the scanner reads. The entries that layout puts in are spelled by nothing.
-/

namespace Offside

namespace Entry

/-- An entry that is not put in by layout. -/
def isRaw : Entry → Bool
  | .token t => !t.kind.isSynthetic
  | .error e => e.kind != .inconsistentDedent

def Spelled (lexeme : List Char) : Entry → Prop
  | .token ⟨.identifier, _, value⟩ => value = .text (String.ofList lexeme)
  | .token ⟨.newline, _, value⟩ => value = .text (String.ofList lexeme)
  | .token ⟨.integer, _, value⟩ =>
    (∀ c ∈ lexeme, Text.isDigit c = true) ∧
      value = .number (Nat.ofDigitChars 10 lexeme 0) ∧
      Nat.ofDigitChars 10 lexeme 0 ≤ Lexeme.maxInteger
  | .token ⟨kind, _, value⟩ => (lexeme, kind) ∈ Pattern.literals ∧ value = .nothing
  | .error ⟨kind, _, text⟩ => kind ≠ .inconsistentDedent ∧ text = String.ofList lexeme

theorem Spelled.isRaw {lexeme : List Char} {entry : Entry} (h : entry.Spelled lexeme) :
    entry.isRaw = true := by
  cases entry with
  | error error => simpa [Entry.isRaw] using h.1
  | token token =>
    obtain ⟨kind, span, value⟩ := token
    cases kind with
    | indentation => simp [Spelled, Pattern.literals] at h
    | deindentation => simp [Spelled, Pattern.literals] at h
    | _ => rfl

end Entry

namespace Lexeme

variable {distinguish : Bool} {first : Char} {rest : List Char} {reading : Reading}

theorem spelled_classifyWord (word : List Char) (span : Span) :
    ((classifyWord word).entry span).Spelled word := by
  rw [classifyWord]
  split_ifs with hdef hreturn
  · rw [hdef]
    exact ⟨by decide, rfl⟩
  · rw [hreturn]
    exact ⟨by decide, rfl⟩
  · rfl

theorem spelled_classifyInteger {digits : List Char}
    (hdigits : ∀ c ∈ digits, Text.isDigit c = true)
    (h : classifyInteger distinguish digits = .ok reading) (span : Span) :
    (reading.entry span).Spelled digits := by
  obtain ⟨hle, rfl⟩ | rfl := classifyInteger_cases h
  · exact ⟨hdigits, rfl, hle⟩
  · refine ⟨?_, rfl⟩
    cases distinguish <;> decide

theorem spelled_classifyPunctuation (lexeme : List Char) (span : Span) :
    ((classifyPunctuation lexeme).entry span).Spelled lexeme := by
  rw [classifyPunctuation]
  split_ifs with harrow hleft hright hcolon
  · rw [harrow]
    exact ⟨by decide, rfl⟩
  · rw [hleft]
    exact ⟨by decide, rfl⟩
  · rw [hright]
    exact ⟨by decide, rfl⟩
  · rw [hcolon]
    exact ⟨by decide, rfl⟩
  · exact ⟨by decide, rfl⟩

theorem munch_of_isDigit (hdigit : Text.isDigit first = true) :
    munch first rest = (first :: rest.takeWhile Text.isDigit, rest.dropWhile Text.isDigit) := by
  have hnewline : first ≠ '\n' := by
    rintro rfl
    exact absurd hdigit (by decide)
  rw [munch, if_neg hnewline, if_neg (by simp [isLetter_of_isDigit hdigit]), if_pos hdigit]

theorem isDigit_of_mem_munch (hdigit : Text.isDigit first = true) :
    ∀ c ∈ (munch first rest).1, Text.isDigit c = true := by
  rw [munch_of_isDigit hdigit, List.forall_mem_cons]
  exact ⟨hdigit, fun c hc => List.all_eq_true.1 List.all_takeWhile c hc⟩

/-- **Spelling.** The entry that a lexeme makes is spelled by it. -/
theorem spelled_of_classify (h : classify distinguish first (munch first rest).1 = .ok reading)
    (span : Span) : (reading.entry span).Spelled (munch first rest).1 := by
  rw [classify] at h
  split_ifs at h with hnewline hletter hdigit
  · obtain rfl := Except.ok.inj h
    rfl
  · obtain rfl := Except.ok.inj h
    exact spelled_classifyWord _ span
  · exact spelled_classifyInteger (isDigit_of_mem_munch hdigit) h span
  · obtain rfl := Except.ok.inj h
    exact spelled_classifyPunctuation _ span

end Lexeme

end Offside
