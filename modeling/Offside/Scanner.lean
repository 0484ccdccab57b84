import Offside.Lexeme

/-!
# The scanner

A scanner stands at a place of its source, counted in characters and in bytes. `next` reads one raw
entry. `next_length`: an entry takes at least one character.
-/

namespace Offside

inductive Outcome where
  | entry (entry : Entry)
  | finished
  | failed (fault : Text.TooManyDigits)
  deriving DecidableEq, Repr

structure Scanner where
  rest : List Char
  position : Nat := 0
  offset : Nat := 0
  deriving DecidableEq, Repr

namespace Scanner

def ofSource (source : String) : Scanner :=
  { rest := source.toList }

/-- Passes over the characters that are taken from the front of the rest. -/
def pass (taken rest : List Char) (scanner : Scanner) : Scanner :=
  { rest := rest
    position := scanner.position + taken.length
    offset := scanner.offset + Utf8.size taken }

def skipBlanks (scanner : Scanner) : Scanner :=
  scanner.pass (scanner.rest.takeWhile isBlank) (scanner.rest.dropWhile isBlank)

/-- Reads the next raw entry. A literal that cannot be converted stays unread. -/
def next (distinguish : Bool) (scanner : Scanner) : Outcome × Scanner :=
  let scanner := scanner.skipBlanks
  match scanner.rest with
  | [] => (.finished, scanner)
  | first :: rest =>
    let (lexeme, rest) := Lexeme.munch first rest
    let after := scanner.pass lexeme rest
    match Lexeme.classify distinguish first lexeme with
    | .error fault => (.failed fault, scanner)
    | .ok reading => (.entry (reading.entry ⟨scanner.offset, after.offset⟩), after)

theorem length_skipBlanks_le (scanner : Scanner) :
    scanner.skipBlanks.rest.length ≤ scanner.rest.length :=
  (List.dropWhile_sublist isBlank).length_le

theorem next_length {distinguish : Bool} {scanner : Scanner} {entry : Entry}
    (h : (scanner.next distinguish).1 = .entry entry) :
    (scanner.next distinguish).2.rest.length < scanner.rest.length := by
  have hskip := scanner.length_skipBlanks_le
  unfold next at h ⊢
  dsimp only at h ⊢
  split
  · rename_i hrest
    simp [hrest] at h
  · rename_i first rest hrest
    have hmunch := Lexeme.munch_length first rest
    rw [hrest, List.length_cons] at hskip
    simp only [hrest] at h
    split
    · rename_i hfault
      simp [hfault] at h
    · simp only [pass]
      omega

end Scanner

end Offside
