import Mathlib.Tactic.SplitIfs
import Offside.Proofs.Decimals
import Offside.Proofs.Seams

/-!
# Readings

What a text reads as when the places of its entries are left aside. The readings of a text do not
depend on where it stands, and like its stream they are determined from its front:
`readings_lexeme`.
-/

namespace Offside

open Lexeme (Reading)

def Lexeme.Reading.isError : Reading → Bool
  | .token .. => false
  | .error .. => true

theorem errorsIn_eq_nil_iff {entries : List Entry} :
    errorsIn entries = [] ↔ ∀ reading ∈ entries.map Entry.reading, reading.isError = false := by
  have hentry (entry : Entry) : entry.error? = none ↔ entry.reading.isError = false := by
    cases entry <;> simp [Entry.error?, Entry.reading, Reading.isError]
  simp [errorsIn, hentry]

theorem ne_newline_of_classify {distinguish : Bool} {first : Char} {lexeme : List Char}
    {reading : Reading} (hfirst : first ≠ '\n')
    (hreading : Lexeme.classify distinguish first lexeme = .ok reading) (value : Payload) :
    reading ≠ .token .newline value := by
  rintro rfl
  rw [Lexeme.classify, if_neg hfirst] at hreading
  split at hreading
  · rw [Lexeme.classifyWord] at hreading
    split_ifs at hreading <;> cases hreading
  split at hreading
  · obtain ⟨-, h⟩ | h := classifyInteger_cases hreading <;> cases h
  · rw [Lexeme.classifyPunctuation] at hreading
    split_ifs at hreading <;> cases hreading

/-- What is read up to the end of a text, or up to the literal that it is cut off by. -/
structure Readings where
  all : List Reading := []
  fault : Option Text.TooManyDigits := none
  deriving DecidableEq, Repr

def Readings.cons (reading : Reading) (readings : Readings) : Readings :=
  { readings with all := reading :: readings.all }

def RawStream.readings (stream : RawStream) : Readings :=
  { all := stream.entries.map Entry.reading, fault := stream.fault }

namespace Scanner

variable {distinguish : Bool}

def readings (distinguish : Bool) (text : List Char) : Readings :=
  (stream distinguish ⟨text, 0, 0⟩).readings

theorem readings_stream (text : List Char) (position offset : Nat) :
    (stream distinguish ⟨text, position, offset⟩).readings = readings distinguish text := by
  have hshift : stream distinguish ⟨text, position, 0 + offset⟩ = _ :=
    stream_shift text position 0 0 offset
  rw [Nat.zero_add] at hshift
  simp [hshift, readings, RawStream.readings, RawStream.shift]

section Front

variable {first : Char} {rest : List Char}

theorem readings_nil : readings distinguish [] = {} := by
  rw [readings, stream_nil]
  rfl

theorem readings_blank (hblank : isBlank first = true) :
    readings distinguish (first :: rest) = readings distinguish rest := by
  rw [readings, stream_blank hblank, readings_stream]

theorem readings_fault {fault : Text.TooManyDigits} (hblank : isBlank first = false)
    (hfault : Lexeme.classify distinguish first (Lexeme.munch first rest).1 = .error fault) :
    readings distinguish (first :: rest) = { fault := some fault } := by
  rw [readings, stream_fault hblank hfault]
  rfl

theorem readings_lexeme {reading : Reading} (hblank : isBlank first = false)
    (hreading : Lexeme.classify distinguish first (Lexeme.munch first rest).1 = .ok reading) :
    readings distinguish (first :: rest) =
      (readings distinguish (Lexeme.munch first rest).2).cons reading := by
  rw [readings, stream_lexeme hblank hreading,
    ← readings_stream _ (0 + (Lexeme.munch first rest).1.length)
      (0 + Utf8.size (Lexeme.munch first rest).1)]
  simp [RawStream.readings, Readings.cons]

theorem ne_newline_of_mem_head? {text : List Char} (hhead : ∀ c ∈ text.head?, isLayout c = false)
    {reading : Reading} (hreading : reading ∈ (readings distinguish text).all.head?)
    (value : Payload) : reading ≠ .token .newline value := by
  cases text with
  | nil =>
    rw [readings_nil] at hreading
    cases hreading
  | cons first rest =>
    obtain ⟨hblank, hnewline⟩ := isLayout_eq_false_iff.1 (hhead first rfl)
    cases hfirst : Lexeme.classify distinguish first (Lexeme.munch first rest).1 with
    | error fault =>
      rw [readings_fault hblank hfirst] at hreading
      cases hreading
    | ok found =>
      rw [readings_lexeme hblank hfirst] at hreading
      obtain rfl := Option.some.inj hreading
      exact ne_newline_of_classify hnewline hfirst value

end Front

end Scanner

theorem readings_rawStream (settings : Settings) (source : String) :
    (rawStream settings source).readings =
      Scanner.readings settings.distinguishes source.toList := rfl

end Offside
