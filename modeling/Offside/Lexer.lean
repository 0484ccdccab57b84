import Offside.Layout
import Offside.Scanner

/-!
# Lexers

A lexer holds what all its iterators share: the scanner and the open blocks. An iterator holds only
where it stands in its own stream, so it may be left and taken up again after others have moved the
lexer on. One pull yields one entry. `measure_pull_lt`: each entry brings the end nearer.
-/

namespace Offside

structure Lexer where
  source : String
  file : Option String := none
  distinguish : Bool := true
  scanner : Scanner := .ofSource source
  widths : Widths := []
  deriving DecidableEq, Repr

/-- An iterator over the raw entries or over those with layout, or one that has come to its end. -/
inductive Iterator where
  | raw
  | layout (phase : Phase)
  | ended
  deriving DecidableEq, Repr

namespace Iterator

def tokens : Iterator :=
  .layout .seek

def pending : Iterator → Nat
  | .layout phase => Layout.pending phase
  | _ => 0

end Iterator

/-- What a lexer puts down about an error entry when it yields one. -/
inductive Note where
  | rawError (error : LexError)
  | inconsistentDedent (width : Nat) (span : Span) (levels : List Nat)
  deriving DecidableEq, Repr

namespace Note

def ofRaw? : Entry → Option Note
  | .error error => some (.rawError error)
  | .token _ => none

/-- The note on an entry that was due in a phase. -/
def ofDue? (phase : Phase) (widths : Widths) : Entry → Option Note
  | .token _ => none
  | .error error =>
    match phase with
    | .close width _ => some (.inconsistentDedent width error.span widths.levels)
    | _ => none

end Note

structure Pull where
  outcome : Outcome
  iterator : Iterator
  lexer : Lexer
  note : Option Note := none

namespace Lexer

def stop (lexer : Lexer) : Int :=
  Utf8.size lexer.source.toList

def pullDue? (lexer : Lexer) (phase : Phase) : Option Pull :=
  (Layout.settle lexer.widths phase).map fun (entry, phase', widths) =>
    { outcome := .entry entry
      iterator := .layout phase'
      lexer := { lexer with widths := widths }
      note := Note.ofDue? phase widths entry }

def finish (lexer : Lexer) : Pull :=
  { outcome := .finished, iterator := .ended, lexer := lexer }

def pullFlush (lexer : Lexer) : Pull :=
  (lexer.pullDue? (.flush lexer.stop)).getD lexer.finish

def pullRaw (lexer : Lexer) : Pull :=
  let (outcome, scanner) := lexer.scanner.next lexer.distinguish
  let moved := { lexer with scanner := scanner }
  match outcome with
  | .entry entry =>
    { outcome := outcome, iterator := .raw, lexer := moved, note := Note.ofRaw? entry }
  | _ => { outcome := outcome, iterator := .ended, lexer := moved }

/-- Looks for the next raw entry on behalf of the layout. -/
def pullSeek (lexer : Lexer) : Pull :=
  let (outcome, scanner) := lexer.scanner.next lexer.distinguish
  let moved := { lexer with scanner := scanner }
  match outcome with
  | .entry entry =>
    { outcome := outcome
      iterator := .layout (Layout.after entry)
      lexer := moved
      note := Note.ofRaw? entry }
  | .finished => moved.pullFlush
  | .failed _ => { outcome := outcome, iterator := .ended, lexer := moved }

def pull (lexer : Lexer) : Iterator → Pull
  | .ended => lexer.finish
  | .raw => lexer.pullRaw
  | .layout phase =>
    match lexer.pullDue? phase with
    | some pull => pull
    | none =>
      match phase with
      | .flush _ => lexer.finish
      | _ => lexer.pullSeek

theorem pull_of_due {lexer : Lexer} {phase : Phase} {due : Pull}
    (h : lexer.pullDue? phase = some due) : lexer.pull (.layout phase) = due := by
  simp [pull, h]

theorem pull_of_flush {lexer : Lexer} {place : Int}
    (h : lexer.pullDue? (.flush place) = none) :
    lexer.pull (.layout (.flush place)) = lexer.finish := by
  simp [pull, h]

theorem pull_of_seek {lexer : Lexer} {phase : Phase} (h : lexer.pullDue? phase = none)
    (hphase : ¬∃ place, phase = .flush place) :
    lexer.pull (.layout phase) = lexer.pullSeek := by
  cases phase <;> simp_all [pull]

/-- A bound on the number of entries that an iterator still yields. -/
def measure (lexer : Lexer) (iterator : Iterator) : Nat :=
  3 * lexer.scanner.rest.length + lexer.widths.length + iterator.pending

theorem measure_pullDue?_lt {lexer : Lexer} {phase : Phase} {pull : Pull}
    (h : lexer.pullDue? phase = some pull) :
    pull.lexer.measure pull.iterator < lexer.measure (.layout phase) := by
  simp only [pullDue?, Option.map_eq_some_iff] at h
  obtain ⟨⟨entry, phase', widths⟩, hsettle, rfl⟩ := h
  have := Layout.settle_lt hsettle
  simp only [measure, Iterator.pending]
  omega

theorem measure_pullFlush_lt {lexer : Lexer} {entry : Entry}
    (h : lexer.pullFlush.outcome = .entry entry) :
    lexer.pullFlush.lexer.measure lexer.pullFlush.iterator < lexer.measure .tokens := by
  unfold pullFlush at h ⊢
  cases hdue : lexer.pullDue? (.flush lexer.stop) with
  | none => simp [hdue, finish] at h
  | some pull =>
    simpa [measure, Iterator.tokens, Iterator.pending, Layout.pending] using
      measure_pullDue?_lt hdue

theorem pending_after_le (entry : Entry) : Layout.pending (Layout.after entry) ≤ 2 := by
  unfold Layout.after
  split <;> simp [Layout.pending]

theorem next_rest_length_le (distinguish : Bool) (scanner : Scanner) :
    (scanner.next distinguish).2.rest.length ≤ scanner.rest.length := by
  cases hnext : (scanner.next distinguish).1 with
  | entry entry => exact Nat.le_of_lt (Scanner.next_length hnext)
  | _ =>
    have hskip := scanner.length_skipBlanks_le
    unfold Scanner.next at hnext ⊢
    dsimp only at hnext ⊢
    split
    · exact hskip
    · rename_i hrest
      simp only [hrest] at hnext
      split
      · exact hskip
      · rename_i hok
        simp [hok] at hnext

theorem measure_pullRaw_lt {lexer : Lexer} {entry : Entry}
    (h : lexer.pullRaw.outcome = .entry entry) :
    lexer.pullRaw.lexer.measure lexer.pullRaw.iterator < lexer.measure .raw := by
  unfold pullRaw at h ⊢
  dsimp only at h ⊢
  cases hnext : (lexer.scanner.next lexer.distinguish).1 with
  | entry found =>
    have := Scanner.next_length hnext
    simp only [measure, Iterator.pending]
    omega
  | finished => simp [hnext] at h
  | failed => simp [hnext] at h

theorem measure_pullSeek_lt {lexer : Lexer} {entry : Entry}
    (h : lexer.pullSeek.outcome = .entry entry) :
    lexer.pullSeek.lexer.measure lexer.pullSeek.iterator < lexer.measure .tokens := by
  unfold pullSeek at h ⊢
  dsimp only at h ⊢
  cases hnext : (lexer.scanner.next lexer.distinguish).1 with
  | entry found =>
    have hlength := Scanner.next_length hnext
    have hpending := pending_after_le found
    simp only [measure, Iterator.pending, Iterator.tokens]
    omega
  | finished =>
    simp only [hnext] at h
    have hle := next_rest_length_le lexer.distinguish lexer.scanner
    refine Nat.lt_of_lt_of_le (measure_pullFlush_lt h) ?_
    simp only [measure]
    omega
  | failed => simp [hnext] at h

theorem measure_pull_lt {lexer : Lexer} {iterator : Iterator} {entry : Entry}
    (h : (lexer.pull iterator).outcome = .entry entry) :
    (lexer.pull iterator).lexer.measure (lexer.pull iterator).iterator <
      lexer.measure iterator := by
  cases iterator with
  | ended => simp [pull, finish] at h
  | raw => exact measure_pullRaw_lt h
  | layout phase =>
    cases hdue : lexer.pullDue? phase with
    | some found =>
      rw [pull_of_due hdue]
      exact measure_pullDue?_lt hdue
    | none =>
      by_cases hflush : ∃ place, phase = .flush place
      · obtain ⟨place, rfl⟩ := hflush
        rw [pull_of_flush hdue] at h
        simp [finish] at h
      · rw [pull_of_seek hdue hflush] at h ⊢
        refine Nat.lt_of_lt_of_le (measure_pullSeek_lt h) ?_
        simp [measure, Iterator.tokens, Iterator.pending, Layout.pending]

end Lexer

/-- How a run comes to its end: the stream is over, an error entry was reached at which the run was
to halt, or a literal could not be converted. -/
inductive Ending where
  | finished
  | halted (error : LexError)
  | failed (fault : Text.TooManyDigits)
  deriving DecidableEq, Repr

/-- What was pulled from an iterator in one go: the entries, the notes made on the way, how it came
to its end and the lexer behind it. -/
structure Run where
  entries : List Entry := []
  notes : List Note := []
  ending : Ending
  lexer : Lexer

namespace Run

def after (entry : Entry) (note : Option Note) (run : Run) : Run :=
  { run with entries := entry :: run.entries, notes := note.toList ++ run.notes }

end Run

/-- Pulls to the end, or, when `strict`, to the first error entry if there is one. -/
def Lexer.run (strict : Bool) (lexer : Lexer) (iterator : Iterator) : Run :=
  let pull := lexer.pull iterator
  match _h : pull.outcome with
  | .finished => { ending := .finished, lexer := pull.lexer }
  | .failed fault => { ending := .failed fault, lexer := pull.lexer }
  | .entry entry =>
    match strict, entry with
    | true, .error error =>
      { notes := pull.note.toList, ending := .halted error, lexer := pull.lexer }
    | _, _ => (pull.lexer.run strict pull.iterator).after entry pull.note
  termination_by lexer.measure iterator
  decreasing_by exact measure_pull_lt _h

end Offside
