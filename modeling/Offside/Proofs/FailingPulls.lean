import Mathlib
import Offside.Proofs.LongLiterals

/-!
# Failing pulls

A pull fails when it looks for a raw entry where a literal that is too long begins:
`Lexer.outcome_eq_failed_iff` and `Scanner.Seated.fails_iff`. It moves the scanner to the literal
and touches nothing else. From then on the lexer is stuck at the literal: its iterators yield what
is still due in their phases and come to the same fault.
-/

namespace Offside

/-! ### Seats -/

/-- Where two parts of a text meet, no literal is cut. -/
def Uncut (before after : List Char) : Prop :=
  ∀ c ∈ before.getLast?, ∀ d ∈ after.head?, Text.isDigit c = true → Text.isDigit d = false

theorem uncut_nil (after : List Char) : Uncut [] after := nofun

theorem uncut_of_not_isDigit {before after : List Char}
    (h : ∀ c ∈ before.getLast?, Text.isDigit c = false) : Uncut before after := by
  intro c hc d _ hdigit
  rw [h c hc] at hdigit
  cases hdigit

theorem Uncut.append {front taken rest : List Char} (hfront : Uncut front (taken ++ rest))
    (htaken : Uncut taken rest) : Uncut (front ++ taken) rest := by
  by_cases hnil : taken = []
  · subst hnil
    rwa [List.append_nil]
  · intro c hc
    rw [List.getLast?_append_of_ne_nil _ hnil] at hc
    exact htaken c hc

theorem Lexeme.uncut_munch (first : Char) (rest : List Char) :
    Uncut (munch first rest).1 (munch first rest).2 := by
  by_cases hdigit : Text.isDigit first = true
  · intro c _ d hd _
    rw [munch_of_isDigit hdigit] at hd
    exact eq_false_of_mem_head?_dropWhile hd
  · have hnone : ∀ c ∈ (munch first rest).1, Text.isDigit c = false :=
      isDigit_munch_of_not (Bool.eq_false_of_not_eq_true hdigit)
    exact uncut_of_not_isDigit fun c hc => hnone c (List.mem_of_getLast? hc)

namespace Scanner

variable {distinguish : Bool} {text : List Char} {scanner : Scanner}

/-- The scanner stands in its text and does not cut a literal. -/
def Seated (text : List Char) (scanner : Scanner) : Prop :=
  ∃ front, front ++ scanner.rest = text ∧ scanner.position = front.length ∧
    Uncut front scanner.rest

theorem seated_ofSource (source : String) : (ofSource source).Seated source.toList :=
  ⟨[], rfl, rfl, uncut_nil _⟩

theorem Seated.pass {taken rest : List Char} (h : scanner.Seated text)
    (hrest : taken ++ rest = scanner.rest) (huncut : Uncut taken rest) :
    (scanner.pass taken rest).Seated text := by
  obtain ⟨front, htext, hposition, hfront⟩ := h
  rw [← hrest] at htext hfront
  refine ⟨front ++ taken, ?_, ?_, hfront.append huncut⟩
  · rw [Scanner.pass, List.append_assoc, htext]
  · rw [Scanner.pass, hposition, List.length_append]

theorem Seated.skipBlanks (h : scanner.Seated text) : scanner.skipBlanks.Seated text := by
  apply h.pass List.takeWhile_append_dropWhile
  apply uncut_of_not_isDigit
  intro c hc
  exact isDigit_of_isBlank (List.mem_takeWhile_imp (List.mem_of_getLast? hc))

theorem Seated.next (h : scanner.Seated text) (distinguish : Bool) :
    (scanner.next distinguish).2.Seated text := by
  obtain ⟨-, hnext⟩ | ⟨first, rest, hrest, ⟨fault, -, hnext⟩ | ⟨reading, -, hnext⟩⟩ :=
    next_cases distinguish scanner
  · rw [hnext]
    exact h.skipBlanks
  · rw [hnext]
    exact h.skipBlanks
  · rw [hnext]
    apply h.skipBlanks.pass
    · rw [hrest, Lexeme.munch_append]
    · exact Lexeme.uncut_munch first rest

end Scanner

/-! ### Faults -/

/-- The first character at or behind a position that is not blank begins a literal that is too long.
The literal stands behind `before`. -/
structure LongAt (text : List Char) (position : Nat) (before after : List Char) : Prop where
  eq_append : text = before ++ after
  position_le : position ≤ before.length
  blank : ∀ c ∈ before.drop position, isBlank c = true
  long : LongBetween before after

namespace Scanner

variable {distinguish : Bool} {text before after : List Char} {scanner : Scanner}
  {fault : Text.TooManyDigits}

theorem next_eq_failed_iff :
    (scanner.next distinguish).1 = .failed fault ↔
      TooLong (scanner.skipBlanks.rest.takeWhile Text.isDigit) ∧
        fault = ⟨(scanner.skipBlanks.rest.takeWhile Text.isDigit).length⟩ := by
  cases hrest : scanner.skipBlanks.rest with
  | nil =>
    constructor
    · intro h
      rw [next] at h
      simp [hrest] at h
    · rintro ⟨hlong, -⟩
      exact absurd hlong not_tooLong_nil
  | cons first rest =>
    have hnext : (scanner.next distinguish).1 = .failed fault ↔
        Lexeme.classify distinguish first (Lexeme.munch first rest).1 = .error fault := by
      rw [next]
      cases hreading : Lexeme.classify distinguish first (Lexeme.munch first rest).1 <;>
        simp [hrest, hreading]
    rw [hnext, Lexeme.classify_eq_error_iff]
    by_cases hdigit : Text.isDigit first = true
    · have hlexeme : (Lexeme.munch first rest).1 = (first :: rest).takeWhile Text.isDigit := by
        rw [Lexeme.munch_of_isDigit hdigit, List.takeWhile_cons_of_pos hdigit]
      rw [hlexeme]
      exact and_iff_right hdigit
    · rw [List.takeWhile_cons_of_neg hdigit]
      constructor
      · exact fun h => absurd h.1 hdigit
      · exact fun h => absurd h.1 not_tooLong_nil

theorem Seated.exists_longAt (h : scanner.Seated text)
    (hlong : TooLong (scanner.skipBlanks.rest.takeWhile Text.isDigit)) :
    ∃ before, LongAt text scanner.position before scanner.skipBlanks.rest := by
  obtain ⟨before, htext, -, huncut⟩ := h.skipBlanks
  obtain ⟨front, hfront, hposition, -⟩ := h
  have hbefore : before = front ++ scanner.rest.takeWhile isBlank := by
    apply List.append_cancel_right
    calc before ++ scanner.skipBlanks.rest
        = front ++ scanner.rest := htext.trans hfront.symm
      _ = front ++ scanner.rest.takeWhile isBlank ++ scanner.skipBlanks.rest := by
        rw [List.append_assoc]
        exact congrArg (front ++ ·) List.takeWhile_append_dropWhile.symm
  refine ⟨before, htext.symm, ?_, ?_, ?_, hlong⟩
  · rw [hposition, hbefore, List.length_append]
    exact Nat.le_add_right _ _
  · intro c hc
    rw [hposition, hbefore, List.drop_left] at hc
    exact List.mem_takeWhile_imp hc
  · intro c hc
    by_contra hdigit
    have hbetween : LongBetween [] scanner.skipBlanks.rest := ⟨nofun, hlong⟩
    obtain ⟨d, tail, hrest, hd⟩ := hbetween.exists_digit
    have hstop := huncut c hc d (by rw [hrest]; rfl) (Bool.eq_true_of_not_eq_false hdigit)
    rw [hd] at hstop
    cases hstop

theorem Seated.skipBlanks_of_longAt (h : scanner.Seated text)
    (hlong : LongAt text scanner.position before after) :
    scanner.skipBlanks.rest = after ∧ scanner.skipBlanks.position = before.length := by
  obtain ⟨front, hfront, hposition, -⟩ := h
  obtain ⟨htext, hle, hblank, hlong⟩ := hlong
  have hbefore : before = front ++ before.drop front.length := by
    have htake : before.take front.length = front :=
      calc before.take front.length = (before ++ after).take front.length :=
            (List.take_append_of_le_length (hposition ▸ hle)).symm
        _ = front := by rw [← htext, ← hfront, List.take_left]
    calc before = before.take front.length ++ before.drop front.length :=
          (List.take_append_drop _ _).symm
      _ = front ++ before.drop front.length := by rw [htake]
  rw [hposition] at hblank
  generalize before.drop front.length = blanks at hblank hbefore
  subst hbefore
  have hrest : scanner.rest = blanks ++ after := by
    apply List.append_cancel_left
    rw [hfront, htext, List.append_assoc]
  obtain ⟨c, tail, rfl, hdigit⟩ := hlong.exists_digit
  have hstop : ∀ d ∈ (c :: tail).head?, isBlank d = false := by
    intro d hd
    obtain rfl := Option.some.inj hd
    by_contra hd
    rw [isDigit_of_isBlank (Bool.eq_true_of_not_eq_false hd)] at hdigit
    cases hdigit
  have htake : blanks.takeWhile isBlank = blanks := List.takeWhile_eq_self_iff.2 hblank
  have hdrop : blanks.dropWhile isBlank = [] := List.dropWhile_eq_nil_iff.2 hblank
  obtain ⟨hblanks, hafter⟩ := takeWhile_append_of_stop hstop blanks
  rw [Scanner.skipBlanks, Scanner.pass, hrest, hblanks, hafter, htake, hdrop, hposition,
    List.length_append]
  exact ⟨rfl, rfl⟩

theorem Seated.fails_iff (h : scanner.Seated text) :
    (scanner.next distinguish).1 = .failed fault ↔
      ∃ before after, LongAt text scanner.position before after ∧
        fault = ⟨(after.takeWhile Text.isDigit).length⟩ := by
  rw [next_eq_failed_iff]
  constructor
  · rintro ⟨hlong, hfault⟩
    obtain ⟨before, hat⟩ := h.exists_longAt hlong
    exact ⟨before, _, hat, hfault⟩
  · rintro ⟨before, after, hat, hfault⟩
    obtain ⟨hrest, -⟩ := h.skipBlanks_of_longAt hat
    rw [hrest]
    exact ⟨hat.long.tooLong, hfault⟩

end Scanner

/-! ### Pulls -/

namespace Lexer

variable {lexer lexer' : Lexer} {iterator iterator' : Iterator} {outcome : Outcome}
  {fault : Text.TooManyDigits}

/-- The iterator looks for a raw entry: it yields no others, or nothing is due in its phase. -/
inductive Seeks (lexer : Lexer) : Iterator → Prop where
  | raw : Seeks lexer .raw
  | layout {phase : Phase} (settle : Layout.settle lexer.widths phase = none)
      (phase_ne : ¬∃ place, phase = .flush place) : Seeks lexer (.layout phase)

/-- A pull that fails moves the scanner to the literal and does no more. -/
theorem Pulls.of_failed (h : lexer.Pulls iterator outcome iterator' lexer')
    (houtcome : outcome = .failed fault) :
    lexer.Seeks iterator ∧ (lexer.scanner.next lexer.distinguish).1 = .failed fault ∧
      iterator' = .ended ∧ lexer' = { lexer with scanner := lexer.scanner.skipBlanks } := by
  have hmoved {lexer : Lexer} (hnext : (lexer.scanner.next lexer.distinguish).1 = .failed fault) :
      lexer.moved = { lexer with scanner := lexer.scanner.skipBlanks } := by
    rw [moved, Scanner.next_of_failed hnext]
  induction h with
  | rawFail hnext =>
    obtain rfl := Outcome.failed.inj houtcome
    exact ⟨.raw, hnext, rfl, hmoved hnext⟩
  | seekFail hsettle hphase hnext =>
    obtain rfl := Outcome.failed.inj houtcome
    exact ⟨.layout hsettle hphase, hnext, rfl, hmoved hnext⟩
  | seekEnd _ _ _ _ ih =>
    obtain ⟨hseeks, -⟩ := ih houtcome
    cases hseeks with
    | layout _ hphase => exact absurd ⟨_, rfl⟩ hphase
  | _ => cases houtcome

theorem outcome_eq_failed_iff :
    (lexer.pull iterator).outcome = .failed fault ↔
      lexer.Seeks iterator ∧ (lexer.scanner.next lexer.distinguish).1 = .failed fault := by
  constructor
  · intro h
    obtain ⟨hseeks, hnext, -⟩ := (lexer.pulls_pull iterator).of_failed h
    exact ⟨hseeks, hnext⟩
  · rintro ⟨hseeks, hnext⟩
    cases hseeks with
    | raw => rw [pull_raw_of_failed hnext]
    | layout hsettle hphase =>
      rw [pull_of_seek (by simp [pullDue?, hsettle]) hphase, pullSeek_of_failed hnext]

theorem Pulls.seated (h : lexer.Pulls iterator outcome iterator' lexer') {text : List Char}
    (hseated : lexer.scanner.Seated text) : lexer'.scanner.Seated text := by
  induction h with
  | ended => exact hseated
  | due => exact hseated
  | closed => exact hseated
  | seekEnd _ _ _ _ ih => exact ih (hseated.next _)
  | _ => exact hseated.next _

/-! ### Stuck lexers -/

/-- The scanner of the lexer can read nothing more. -/
def Stuck (fault : Text.TooManyDigits) (lexer : Lexer) : Prop :=
  lexer.remaining = { fault := some fault }

theorem Stuck.next_eq (h : lexer.Stuck fault) :
    (lexer.scanner.next lexer.distinguish).1 = .failed fault := by
  rw [Stuck, remaining] at h
  cases hnext : (lexer.scanner.next lexer.distinguish).1 with
  | finished =>
    rw [Scanner.stream_of_finished hnext] at h
    cases h
  | failed found =>
    rw [Scanner.stream_of_failed hnext] at h
    cases h
    rfl
  | entry entry =>
    rw [Scanner.stream_of_entry hnext] at h
    cases h

theorem Stuck.pulls (hstuck : lexer.Stuck fault)
    (h : lexer.Pulls iterator outcome iterator' lexer') :
    rawEntries outcome.yielded = [] ∧ lexer'.Stuck fault := by
  have hremaining := h.prepend_remaining.trans hstuck
  have hentries := congrArg RawStream.entries hremaining
  rw [RawStream.entries_prepend] at hentries
  obtain ⟨hyielded, -⟩ := List.append_eq_nil_iff.1 hentries
  rw [hyielded] at hremaining
  exact ⟨hyielded, hremaining⟩

theorem Stuck.exists_due (hstuck : lexer.Stuck fault) (hdrained : lexer.Drained iterator)
    (hlive : iterator ≠ .ended) (hseeks : ¬lexer.Seeks iterator) :
    ∃ entry, (lexer.pull iterator).outcome = .entry entry ∧ entry.isRaw = false := by
  cases iterator with
  | raw => exact absurd .raw hseeks
  | ended => exact absurd rfl hlive
  | layout phase =>
    cases hsettle : Layout.settle lexer.widths phase with
    | some due =>
      obtain ⟨entry, phase', widths⟩ := due
      refine ⟨entry, by rw [pull_of_settle hsettle], ?_⟩
      by_contra hraw
      have hnone := Layout.rawEntries_settle hsettle
      rw [rawEntries_singleton_of_isRaw (Bool.eq_true_of_not_eq_false hraw)] at hnone
      cases hnone
    | none =>
      by_cases hflush : ∃ place, phase = .flush place
      · have hrest := hdrained (hflush.imp fun _ => congrArg Iterator.layout)
        rw [Stuck, remaining, Scanner.stream_of_rest_eq_nil hrest] at hstuck
        cases hstuck
      · exact absurd (.layout hsettle hflush) hseeks

end Lexer

/-! ### Sharing a lexer -/

namespace Sharing

variable {sharing : Sharing} {text : List Char} {number : Nat} {fault : Text.TooManyDigits}

theorem seated_after (h : sharing.lexer.scanner.Seated text) (moves : List Move) :
    (sharing.after moves).lexer.scanner.Seated text := by
  refine forall_after (P := fun sharing => sharing.lexer.scanner.Seated text) ?_ ?_ h moves
  · exact fun _ h => h
  · exact fun _ h => (Lexer.pulls_pull _ _).seated h

theorem ended_after (h : sharing.iterators[number]? = some .ended) (moves : List Move) :
    (sharing.after moves).iterators[number]? = some .ended := by
  refine forall_after (P := fun sharing => sharing.iterators[number]? = some .ended) ?_ ?_ h moves
  · intro sharing iterator _ h
    rw [List.getElem?_append_left (List.getElem?_eq_some_iff.1 h).1, h]
  · intro sharing other iterator hiterator h
    by_cases hsame : other = number
    · subst hsame
      obtain rfl := Option.some.inj (hiterator.symm.trans h)
      exact List.getElem?_set_self (List.getElem?_eq_some_iff.1 h).1
    · exact (List.getElem?_set_ne hsame).trans h

theorem stuck_after (h : sharing.lexer.Stuck fault) (moves : List Move) :
    (sharing.after moves).lexer.Stuck fault ∧
      rawEntries (sharing.after moves).yielded = rawEntries sharing.yielded := by
  refine forall_after (P := fun other => other.lexer.Stuck fault ∧
    rawEntries other.yielded = rawEntries sharing.yielded) ?_ ?_ ⟨h, rfl⟩ moves
  · exact fun _ h => h
  · rintro other number iterator - ⟨hstuck, hraw⟩
    obtain ⟨hnone, hstuck'⟩ := hstuck.pulls (other.lexer.pulls_pull iterator)
    refine ⟨hstuck', ?_⟩
    rw [pull, rawEntries_append, hnone, List.append_nil, hraw]

/-- What is left to the iterators of a lexer of which one has failed: those that look for a raw
entry fail as well, and the others first yield what is due in their phases. -/
structure Jammed (fault : Text.TooManyDigits) (sharing : Sharing) : Prop where
  seeking : ∀ iterator ∈ sharing.iterators, sharing.lexer.Seeks iterator →
    (sharing.lexer.pull iterator).outcome = .failed fault
  pending : ∀ iterator ∈ sharing.iterators, iterator ≠ .ended → ¬sharing.lexer.Seeks iterator →
    ∃ entry, (sharing.lexer.pull iterator).outcome = .entry entry ∧ entry.isRaw = false
  ending : ∀ iterator ∈ sharing.iterators, iterator ≠ .ended →
    (sharing.lexer.run false iterator).ending = .failed fault

theorem Whole.jammed {scanned : List Entry} (h : sharing.Whole scanned)
    (hstuck : sharing.lexer.Stuck fault) : sharing.Jammed fault := by
  refine ⟨?_, ?_, ?_⟩
  · intro iterator _ hseeks
    exact Lexer.outcome_eq_failed_iff.2 ⟨hseeks, hstuck.next_eq⟩
  · intro iterator hiterator hlive hseeks
    exact hstuck.exists_due (h.drained iterator hiterator) hlive hseeks
  · intro iterator hiterator hlive
    have hrun := sharing.lexer.run_remaining iterator hlive (h.drained iterator hiterator)
    rw [hrun.2, hstuck]
    rfl

/-- What one of the iterators comes to in a pull that fails, and what the others find then. -/
theorem step_of_failed {iterator : Iterator}
    (hiterator : sharing.iterators[number]? = some iterator)
    (hfailed : (sharing.lexer.pull iterator).outcome = .failed fault) :
    sharing.step (.pull number) =
        { lexer := { sharing.lexer with scanner := sharing.lexer.scanner.skipBlanks }
          iterators := sharing.iterators.set number .ended
          yielded := sharing.yielded } ∧
      (sharing.step (.pull number)).lexer.Stuck fault := by
  have hpulls := sharing.lexer.pulls_pull iterator
  obtain ⟨-, -, hended, hlexer⟩ := hpulls.of_failed hfailed
  have hremaining := hpulls.prepend_remaining
  rw [hpulls.remaining_of_failed hfailed, hfailed] at hremaining
  rw [step_pull hiterator]
  refine ⟨?_, hremaining⟩
  rw [pull, hended, hlexer, hfailed]
  exact congrArg (Sharing.mk _ _) (List.append_nil _)

end Sharing

/-- **Failing pulls.** Whatever was pulled before from the iterators of a lexer, a pull fails just
when it looks for a raw entry and the next character that is not blank begins a literal that is too
long. It yields nothing, it moves the scanner to the literal and leaves all else as it was. After it
no raw entry is yielded any more: the iterator that failed stays at its end, and every other one,
old or new, comes to the same fault as soon as nothing is due to it. -/
theorem failing_pull (settings : Settings) (source : String) (file : Option String)
    (moves : List Move) :
    let sharing := Sharing.after { lexer := Lexer.ofSettings settings source file } moves
    let position := sharing.lexer.scanner.position
    ∀ number iterator, sharing.iterators[number]? = some iterator →
      (∀ fault, (sharing.lexer.pull iterator).outcome = .failed fault ↔
        sharing.lexer.Seeks iterator ∧ ∃ before after,
          LongAt source.toList position before after ∧
            fault = ⟨(after.takeWhile Text.isDigit).length⟩) ∧
      ∀ fault, (sharing.lexer.pull iterator).outcome = .failed fault →
        let failed := sharing.step (.pull number)
        failed.yielded = sharing.yielded ∧
          failed.lexer = { sharing.lexer with scanner := sharing.lexer.scanner.skipBlanks } ∧
          (∀ before after, LongAt source.toList position before after →
            failed.lexer.scanner.position = before.length) ∧
          ∀ later,
            rawEntries (failed.after later).yielded = rawEntries failed.yielded ∧
              (failed.after later).iterators[number]? = some .ended ∧
              (failed.after later).Jammed fault := by
  intro sharing position number iterator hiterator
  have hseated : sharing.lexer.scanner.Seated source.toList :=
    Sharing.seated_after (Scanner.seated_ofSource source) moves
  have hwhole := (Sharing.whole_of_lexer (Lexer.ofSettings settings source file)).after moves
  refine ⟨fun fault => ?_, fun fault hfailed => ?_⟩
  · rw [Lexer.outcome_eq_failed_iff, hseated.fails_iff]
  intro failed
  obtain ⟨hstep, hstuck⟩ := Sharing.step_of_failed hiterator hfailed
  have hfailedWhole := hwhole.pull hiterator
  rw [← Sharing.step_pull hiterator] at hfailedWhole
  have hnumber : failed.iterators[number]? = some .ended := by
    apply (congrArg (·.iterators[number]?) hstep).trans
    exact List.getElem?_set_self (List.getElem?_eq_some_iff.1 hiterator).1
  refine ⟨(congrArg Sharing.yielded hstep).trans rfl, congrArg Sharing.lexer hstep, ?_, ?_⟩
  · intro before after hat
    apply (congrArg (·.lexer.scanner.position) hstep).trans
    exact (hseated.skipBlanks_of_longAt hat).2
  · intro later
    obtain ⟨hstuckLater, hraw⟩ := Sharing.stuck_after hstuck later
    exact ⟨hraw, Sharing.ended_after hnumber later, (hfailedWhole.after later).jammed hstuckLater⟩

/-- A block that has still to be opened is opened after another iterator has failed in it. -/
theorem failing_pull_zeros :
    let text := 'a' :: '\n' :: ' ' :: List.replicate 4301 '0'
    let moves : List Move := [.tokens, .raw, .pull 0, .pull 0]
    let sharing := Sharing.after { lexer := Lexer.ofSettings {} (String.ofList text) } moves
    let failed := sharing.step (.pull 1)
    sharing.iterators[1]? = some .raw ∧
      (sharing.lexer.pull .raw).outcome = .failed ⟨4301⟩ ∧
      failed.yielded = sharing.yielded ∧
      failed.lexer = { sharing.lexer with scanner := sharing.lexer.scanner.skipBlanks } ∧
      (failed.after [.pull 0]).yielded = sharing.yielded ++ [Layout.indentation 3] ∧
      (failed.after [.pull 0]).Jammed ⟨4301⟩ := by
  -- The zeros are kept apart from their number, which is too large for them to be unfolded.
  have hdigits := takeWhile_replicate_zero 4301
  have hlong : TooLong (List.replicate 4301 '0') := tooLong_replicate_zero (by decide)
  have hlength : (List.replicate 4301 '0').length = 4301 := List.length_replicate
  have hzero : ∃ tail, List.replicate 4301 '0' = '0' :: tail := ⟨_, List.replicate_succ⟩
  generalize List.replicate 4301 '0' = zeros at *
  obtain ⟨tail, rfl⟩ := hzero
  intro text moves sharing failed
  have hsharing : sharing =
      { lexer := { source := String.ofList text, scanner := ⟨'0' :: tail, 3, 3⟩ }
        iterators := [.layout (.compare 1 3), .raw]
        yielded := [.token ⟨.identifier, ⟨0, 1⟩, .text "a"⟩,
          .token ⟨.newline, ⟨1, 3⟩, .text "\n "⟩] } := by
    have hlexer : Lexer.ofSettings {} (String.ofList text) =
        { source := String.ofList text, scanner := ⟨text, 0, 0⟩ } := by
      rw [Lexer.ofSettings, Scanner.ofSource, String.toList_ofList]
      rfl
    simp only [sharing, hlexer]
    cbv
  have hat : LongAt (String.ofList text).toList sharing.lexer.scanner.position
      ['a', '\n', ' '] ('0' :: tail) := by
    have hspace : ∀ c ∈ ['a', '\n', ' '].getLast?, Text.isDigit c = false := by
      intro c hc
      obtain rfl := Option.some.inj hc
      rfl
    have hnone : ∀ c ∈ ['a', '\n', ' '].drop 3, isBlank c = true := by
      intro c hc
      cases hc
    rw [hsharing]
    refine ⟨String.toList_ofList, le_rfl, hnone, hspace, ?_⟩
    rwa [hdigits]
  have hiterator : sharing.iterators[1]? = some .raw := by rw [hsharing]; rfl
  obtain ⟨hfails, hfailing⟩ := failing_pull {} (String.ofList text) none moves 1 .raw hiterator
  have hfailed : (sharing.lexer.pull .raw).outcome = .failed ⟨4301⟩ := by
    refine (hfails _).2 ⟨.raw, _, _, hat, ?_⟩
    rw [hdigits, hlength]
  obtain ⟨hyielded, hlexer, -, hlater⟩ := hfailing _ hfailed
  refine ⟨hiterator, hfailed, hyielded, hlexer, ?_, (hlater [.pull 0]).2.2⟩
  change ((sharing.step (.pull 1)).step (.pull 0)).yielded = _
  rw [(Sharing.step_of_failed hiterator hfailed).1, hsharing]
  rfl

end Offside
