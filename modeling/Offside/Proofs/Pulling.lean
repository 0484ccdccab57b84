import Offside.Lexer

/-!
# Pulls and runs

What one pull comes to, told by what the scanner finds, and what a run comes to, told by its first
pull. `run_eq_of_errorsIn_eq_nil`: a strict run over a stream without errors is the permissive one.
-/

namespace Offside

def Outcome.yielded : Outcome → List Entry
  | .entry found => [found]
  | _ => []

namespace Lexer

variable {lexer : Lexer} {iterator : Iterator} {strict : Bool} {entry : Entry}

/-- The lexer with its scanner moved behind what it looks for next. -/
def moved (lexer : Lexer) : Lexer :=
  { lexer with scanner := (lexer.scanner.next lexer.distinguish).2 }

/-! ### Pulls -/

theorem pull_raw_of_entry (h : (lexer.scanner.next lexer.distinguish).1 = .entry entry) :
    lexer.pull .raw =
      { outcome := .entry entry, iterator := .raw, lexer := lexer.moved,
        note := Note.ofRaw? entry } := by
  simp [pull, pullRaw, moved, h]

theorem pull_raw_of_finished (h : (lexer.scanner.next lexer.distinguish).1 = .finished) :
    lexer.pull .raw = { outcome := .finished, iterator := .ended, lexer := lexer.moved } := by
  simp [pull, pullRaw, moved, h]

theorem pull_raw_of_failed {fault : Text.TooManyDigits}
    (h : (lexer.scanner.next lexer.distinguish).1 = .failed fault) :
    lexer.pull .raw = { outcome := .failed fault, iterator := .ended, lexer := lexer.moved } := by
  simp [pull, pullRaw, moved, h]

theorem pullSeek_of_entry (h : (lexer.scanner.next lexer.distinguish).1 = .entry entry) :
    lexer.pullSeek =
      { outcome := .entry entry, iterator := .layout (Layout.after entry), lexer := lexer.moved,
        note := Note.ofRaw? entry } := by
  simp [pullSeek, moved, h]

theorem pullSeek_of_finished (h : (lexer.scanner.next lexer.distinguish).1 = .finished) :
    lexer.pullSeek = lexer.moved.pull (.layout (.flush lexer.stop)) := by
  have hseek : lexer.pullSeek = lexer.moved.pullFlush := by simp [pullSeek, moved, h]
  rw [hseek, pullFlush, show lexer.moved.stop = lexer.stop from rfl]
  cases hdue : lexer.moved.pullDue? (.flush lexer.stop) with
  | none => rw [pull_of_flush hdue, Option.getD_none]
  | some due => rw [pull_of_due hdue, Option.getD_some]

theorem pullSeek_of_failed {fault : Text.TooManyDigits}
    (h : (lexer.scanner.next lexer.distinguish).1 = .failed fault) :
    lexer.pullSeek = { outcome := .failed fault, iterator := .ended, lexer := lexer.moved } := by
  simp [pullSeek, moved, h]

theorem pull_of_settle {phase phase' : Phase} {widths : Widths}
    (h : Layout.settle lexer.widths phase = some (entry, phase', widths)) :
    lexer.pull (.layout phase) =
      { outcome := .entry entry
        iterator := .layout phase'
        lexer := { lexer with widths := widths }
        note := Note.ofDue? phase widths entry } :=
  pull_of_due (by simp [pullDue?, h])

/-- All that one pull can come to: what it yields, where it leaves the iterator and what it makes of
the lexer. At the end of the text a pull for the layout goes on with what is due there. -/
inductive Pulls : Lexer → Iterator → Outcome → Iterator → Lexer → Prop where
  | ended {lexer : Lexer} : Pulls lexer .ended .finished .ended lexer
  | raw {lexer : Lexer} {entry : Entry}
      (next : (lexer.scanner.next lexer.distinguish).1 = .entry entry) :
      Pulls lexer .raw (.entry entry) .raw lexer.moved
  | rawEnd {lexer : Lexer} (next : (lexer.scanner.next lexer.distinguish).1 = .finished) :
      Pulls lexer .raw .finished .ended lexer.moved
  | rawFail {lexer : Lexer} {fault : Text.TooManyDigits}
      (next : (lexer.scanner.next lexer.distinguish).1 = .failed fault) :
      Pulls lexer .raw (.failed fault) .ended lexer.moved
  | due {lexer : Lexer} {phase phase' : Phase} {entry : Entry} {widths : Widths}
      (settle : Layout.settle lexer.widths phase = some (entry, phase', widths)) :
      Pulls lexer (.layout phase) (.entry entry) (.layout phase') { lexer with widths := widths }
  | closed {lexer : Lexer} {place : Int} (closed : lexer.widths = []) :
      Pulls lexer (.layout (.flush place)) .finished .ended lexer
  | seek {lexer : Lexer} {phase : Phase} {entry : Entry}
      (settle : Layout.settle lexer.widths phase = none) (phase_ne : ¬∃ place, phase = .flush place)
      (next : (lexer.scanner.next lexer.distinguish).1 = .entry entry) :
      Pulls lexer (.layout phase) (.entry entry) (.layout (Layout.after entry)) lexer.moved
  | seekFail {lexer : Lexer} {phase : Phase} {fault : Text.TooManyDigits}
      (settle : Layout.settle lexer.widths phase = none) (phase_ne : ¬∃ place, phase = .flush place)
      (next : (lexer.scanner.next lexer.distinguish).1 = .failed fault) :
      Pulls lexer (.layout phase) (.failed fault) .ended lexer.moved
  | seekEnd {lexer lexer' : Lexer} {phase : Phase} {outcome : Outcome} {iterator : Iterator}
      (settle : Layout.settle lexer.widths phase = none) (phase_ne : ¬∃ place, phase = .flush place)
      (next : (lexer.scanner.next lexer.distinguish).1 = .finished)
      (flush : Pulls lexer.moved (.layout (.flush lexer.stop)) outcome iterator lexer') :
      Pulls lexer (.layout phase) outcome iterator lexer'

theorem pulls_flush (lexer : Lexer) (place : Int) :
    Pulls lexer (.layout (.flush place)) (lexer.pull (.layout (.flush place))).outcome
      (lexer.pull (.layout (.flush place))).iterator
      (lexer.pull (.layout (.flush place))).lexer := by
  cases hsettle : Layout.settle lexer.widths (.flush place) with
  | none =>
    have hclosed : lexer.widths = [] := by
      simpa [Layout.settle] using hsettle
    rw [pull_of_flush (by simp [pullDue?, hsettle])]
    exact .closed hclosed
  | some due =>
    obtain ⟨entry, phase', widths⟩ := due
    rw [pull_of_settle hsettle]
    exact .due hsettle

theorem pulls_pull (lexer : Lexer) (iterator : Iterator) :
    Pulls lexer iterator (lexer.pull iterator).outcome (lexer.pull iterator).iterator
      (lexer.pull iterator).lexer := by
  cases iterator with
  | ended => exact .ended
  | raw =>
    cases hnext : (lexer.scanner.next lexer.distinguish).1 with
    | entry entry => rw [pull_raw_of_entry hnext]; exact .raw hnext
    | finished => rw [pull_raw_of_finished hnext]; exact .rawEnd hnext
    | failed fault => rw [pull_raw_of_failed hnext]; exact .rawFail hnext
  | layout phase =>
    by_cases hflush : ∃ place, phase = .flush place
    · obtain ⟨place, rfl⟩ := hflush
      exact pulls_flush lexer place
    cases hsettle : Layout.settle lexer.widths phase with
    | some due =>
      obtain ⟨entry, phase', widths⟩ := due
      rw [pull_of_settle hsettle]
      exact .due hsettle
    | none =>
      rw [pull_of_seek (by simp [pullDue?, hsettle]) hflush]
      cases hnext : (lexer.scanner.next lexer.distinguish).1 with
      | entry entry => rw [pullSeek_of_entry hnext]; exact .seek hsettle hflush hnext
      | finished =>
        rw [pullSeek_of_finished hnext]
        exact .seekEnd hsettle hflush hnext (pulls_flush lexer.moved lexer.stop)
      | failed fault => rw [pullSeek_of_failed hnext]; exact .seekFail hsettle hflush hnext

/-! ### Runs -/

theorem run_of_finished (h : (lexer.pull iterator).outcome = .finished) :
    lexer.run strict iterator = { ending := .finished, lexer := (lexer.pull iterator).lexer } := by
  unfold run
  dsimp only
  split <;> simp_all

theorem run_of_failed {fault : Text.TooManyDigits}
    (h : (lexer.pull iterator).outcome = .failed fault) :
    lexer.run strict iterator =
      { ending := .failed fault, lexer := (lexer.pull iterator).lexer } := by
  unfold run
  dsimp only
  split <;> simp_all

theorem run_of_entry (h : (lexer.pull iterator).outcome = .entry entry)
    (hgo : strict = false ∨ entry.isError = false) :
    lexer.run strict iterator =
      ((lexer.pull iterator).lexer.run strict (lexer.pull iterator).iterator).after entry
        (lexer.pull iterator).note := by
  rw [run]
  split
  · simp_all
  · simp_all
  · rename_i found hfound
    obtain rfl : found = entry := by simp_all
    cases strict <;> cases found <;> simp_all [Entry.isError, Entry.error?]

theorem run_of_error {error : LexError}
    (h : (lexer.pull iterator).outcome = .entry (.error error)) :
    lexer.run true iterator =
      { notes := (lexer.pull iterator).note.toList, ending := .halted error,
        lexer := (lexer.pull iterator).lexer } := by
  rw [run]
  split
  · simp_all
  · simp_all
  · rename_i found hfound
    obtain rfl : found = .error error := by simp_all
    rfl

/-- Induction on the pulls that yield an entry. -/
@[elab_as_elim]
theorem pull_induction {motive : Lexer → Iterator → Prop}
    (finished : ∀ lexer iterator, (lexer.pull iterator).outcome = .finished → motive lexer iterator)
    (failed : ∀ lexer iterator fault, (lexer.pull iterator).outcome = .failed fault →
      motive lexer iterator)
    (entry : ∀ lexer iterator entry, (lexer.pull iterator).outcome = .entry entry →
      motive (lexer.pull iterator).lexer (lexer.pull iterator).iterator → motive lexer iterator)
    (lexer : Lexer) (iterator : Iterator) : motive lexer iterator := by
  induction hmeasure : lexer.measure iterator using Nat.strongRecOn generalizing lexer iterator with
  | ind n ih =>
    subst hmeasure
    cases houtcome : (lexer.pull iterator).outcome with
    | finished => exact finished lexer iterator houtcome
    | failed fault => exact failed lexer iterator fault houtcome
    | entry found =>
      exact entry lexer iterator found houtcome (ih _ (measure_pull_lt houtcome) _ _ rfl)

/-- Induction on what a lexer still has to read, whatever blocks are open where it goes on. -/
@[elab_as_elim]
theorem next_induction {motive : Lexer → Prop}
    (finished : ∀ lexer, (lexer.scanner.next lexer.distinguish).1 = .finished → motive lexer)
    (failed : ∀ lexer fault, (lexer.scanner.next lexer.distinguish).1 = .failed fault →
      motive lexer)
    (entry : ∀ lexer entry, (lexer.scanner.next lexer.distinguish).1 = .entry entry →
      (∀ widths, motive { lexer.moved with widths := widths }) → motive lexer)
    (lexer : Lexer) : motive lexer := by
  induction hlength : lexer.scanner.rest.length using Nat.strongRecOn generalizing lexer with
  | ind n ih =>
    subst hlength
    cases hnext : (lexer.scanner.next lexer.distinguish).1 with
    | finished => exact finished lexer hnext
    | failed fault => exact failed lexer fault hnext
    | entry found =>
      exact entry lexer found hnext fun _ => ih _ (Scanner.next_length hnext) _ rfl

/-- What holds of every entry that is pulled holds of every entry of a run, given an invariant that
each pull keeps. -/
theorem forall_mem_run {Invariant : Lexer → Iterator → Prop} {P : Entry → Prop}
    (hpull : ∀ {lexer iterator entry}, Invariant lexer iterator →
      (lexer.pull iterator).outcome = .entry entry →
        P entry ∧ Invariant (lexer.pull iterator).lexer (lexer.pull iterator).iterator)
    (hinvariant : Invariant lexer iterator) :
    ∀ entry ∈ (lexer.run strict iterator).entries, P entry := by
  induction lexer, iterator using pull_induction with
  | finished lexer iterator houtcome =>
    rw [run_of_finished houtcome]
    exact List.forall_mem_nil _
  | failed lexer iterator fault houtcome =>
    rw [run_of_failed houtcome]
    exact List.forall_mem_nil _
  | entry lexer iterator first houtcome ih =>
    obtain ⟨hfirst, hnext⟩ := hpull hinvariant houtcome
    by_cases hgo : strict = false ∨ first.isError = false
    · rw [run_of_entry houtcome hgo]
      exact List.forall_mem_cons.2 ⟨hfirst, ih hnext⟩
    · obtain ⟨rfl, error, rfl⟩ : strict = true ∧ ∃ error, first = .error error := by
        cases strict <;> cases first <;> simp_all [Entry.isError, Entry.error?]
      rw [run_of_error houtcome]
      exact List.forall_mem_nil _

theorem run_eq_of_errorsIn_eq_nil (lexer : Lexer) (iterator : Iterator)
    (h : errorsIn (lexer.run false iterator).entries = []) :
    lexer.run true iterator = lexer.run false iterator := by
  induction lexer, iterator using pull_induction with
  | finished lexer iterator houtcome => rw [run_of_finished houtcome, run_of_finished houtcome]
  | failed lexer iterator fault houtcome => rw [run_of_failed houtcome, run_of_failed houtcome]
  | entry lexer iterator entry houtcome ih =>
    rw [run_of_entry houtcome (.inl rfl)] at h ⊢
    have herror : entry.isError = false ∧ errorsIn ((lexer.pull iterator).lexer.run false
        (lexer.pull iterator).iterator).entries = [] := by
      cases entry <;> simp_all [Run.after, errorsIn, Entry.isError, Entry.error?]
    rw [run_of_entry houtcome (.inr herror.1), ih herror.2]

end Lexer

end Offside
