import Mathlib
import Offside.Proofs.MeasuredLines
import Offside.Proofs.Sharing
import Offside.Proofs.StrictLexing

/-!
# Notes

What a lexer puts down while it is pulled mirrors the errors that it yields, one note for each of
them, in the pull that yields it: `Lexer.exists_note_run`. A strict run puts down the first of the
notes: `Lexer.notes_run_strict`. The width in a note is that of the line behind the last newline,
which the invariant `Iterator.Measures` keeps hold of while blocks are closed.
-/

namespace Offside

theorem errorsIn_cons (entry : Entry) (entries : List Entry) :
    errorsIn (entry :: entries) = errorsIn [entry] ++ errorsIn entries :=
  @List.filterMap_append _ _ [entry] entries Entry.error?

/-! ### One pull -/

namespace Layout

variable {widths widths' : Widths} {phase phase' : Phase} {entry : Entry}

/-- An error is put in only where blocks have been closed and the width fits none. -/
theorem settle_error {error : LexError}
    (h : settle widths phase = some (.error error, phase', widths')) :
    ∃ width place, phase = .close width place ∧ .error error = inconsistentDedent place := by
  cases phase with
  | seek => cases h
  | compare width place =>
    rw [settle] at h
    split_ifs at h <;> cases h
  | close width place =>
    rw [settle] at h
    split_ifs at h <;> cases h
    exact ⟨width, place, rfl, rfl⟩
  | flush place =>
    rw [settle] at h
    split_ifs at h
    cases h

end Layout

namespace Lexer

variable {lexer lexer' : Lexer} {iterator iterator' : Iterator} {outcome : Outcome} {entry : Entry}

theorem note_of_settle {phase : Phase} {found : Entry × Phase × Widths}
    (hsettle : Layout.settle lexer.widths phase = some found)
    (h : (lexer.pull (.layout phase)).outcome = .entry entry) :
    Layout.settle lexer.widths phase =
        some (entry, found.2.1, (lexer.pull (.layout phase)).lexer.widths) ∧
      (lexer.pull (.layout phase)).note =
        Note.ofDue? phase (lexer.pull (.layout phase)).lexer.widths entry := by
  obtain ⟨due, phase', widths⟩ := found
  rw [pull_of_settle hsettle] at h ⊢
  obtain rfl := Outcome.entry.inj h
  exact ⟨hsettle, rfl⟩

theorem note_of_seek (h : lexer.pullSeek.outcome = .entry entry) :
    entry.isRaw = true ∧ lexer.pullSeek.note = Note.ofRaw? entry ∨
      ∃ phase' widths, Layout.settle widths (.flush lexer.stop) =
          some (entry, phase', lexer.pullSeek.lexer.widths) ∧
        lexer.pullSeek.note =
          Note.ofDue? (.flush lexer.stop) lexer.pullSeek.lexer.widths entry := by
  cases hnext : (lexer.scanner.next lexer.distinguish).1 with
  | entry found =>
    rw [pullSeek_of_entry hnext] at h ⊢
    obtain rfl := Outcome.entry.inj h
    exact .inl ⟨Scanner.isRaw_of_next hnext, rfl⟩
  | failed fault =>
    rw [pullSeek_of_failed hnext] at h
    cases h
  | finished =>
    rw [pullSeek_of_finished hnext] at h ⊢
    cases hsettle : Layout.settle lexer.moved.widths (.flush lexer.stop) with
    | none =>
      rw [pull_of_flush (by simp [pullDue?, hsettle])] at h
      cases h
    | some found =>
      obtain ⟨hsettle, hnote⟩ := note_of_settle hsettle h
      exact .inr ⟨_, _, hsettle, hnote⟩

/-- What a pull puts down: it goes by the entry alone if that is a raw one, and otherwise by the
phase in which the entry was due. A width is measured in the phase of the iterator itself. -/
theorem note_of_entry (h : (lexer.pull iterator).outcome = .entry entry) :
    entry.isRaw = true ∧ (lexer.pull iterator).note = Note.ofRaw? entry ∨
      ∃ phase phase' widths, Layout.settle widths phase =
          some (entry, phase', (lexer.pull iterator).lexer.widths) ∧
        (lexer.pull iterator).note =
          Note.ofDue? phase (lexer.pull iterator).lexer.widths entry ∧
        ∀ width ∈ phase.width?, iterator = .layout phase := by
  cases iterator with
  | ended => cases h
  | raw =>
    cases hnext : (lexer.scanner.next lexer.distinguish).1 with
    | entry found =>
      rw [pull_raw_of_entry hnext] at h ⊢
      obtain rfl := Outcome.entry.inj h
      exact .inl ⟨Scanner.isRaw_of_next hnext, rfl⟩
    | finished =>
      rw [pull_raw_of_finished hnext] at h
      cases h
    | failed fault =>
      rw [pull_raw_of_failed hnext] at h
      cases h
  | layout phase =>
    cases hsettle : Layout.settle lexer.widths phase with
    | some found =>
      obtain ⟨hsettle, hnote⟩ := note_of_settle hsettle h
      exact .inr ⟨phase, _, _, hsettle, hnote, fun _ _ => rfl⟩
    | none =>
      by_cases hflush : ∃ place, phase = .flush place
      · obtain ⟨place, rfl⟩ := hflush
        rw [pull_of_flush (by simp [pullDue?, hsettle])] at h
        cases h
      rw [pull_of_seek (by simp [pullDue?, hsettle]) hflush] at h ⊢
      refine (note_of_seek h).imp_right ?_
      rintro ⟨phase', widths, hclose, hnote⟩
      exact ⟨.flush lexer.stop, phase', widths, hclose, hnote, fun _ hwidth => by cases hwidth⟩

theorem note_of_token {token : Token} (h : (lexer.pull iterator).outcome = .entry (.token token)) :
    (lexer.pull iterator).note = none := by
  obtain ⟨-, hnote⟩ | ⟨phase, phase', widths, -, hnote, -⟩ := note_of_entry h
  · exact hnote
  · exact hnote

theorem note_of_error {error : LexError}
    (h : (lexer.pull iterator).outcome = .entry (.error error)) :
    (Entry.error error).isRaw = true ∧ (lexer.pull iterator).note = some (.rawError error) ∨
      ∃ width place, iterator = .layout (.close width place) ∧
        .error error = Layout.inconsistentDedent place ∧
        (lexer.pull iterator).note = some (.inconsistentDedent width error.span
          (lexer.pull iterator).lexer.widths.levels) := by
  obtain ⟨hraw, hnote⟩ | ⟨phase, phase', widths, hsettle, hnote, hphase⟩ := note_of_entry h
  · exact .inl ⟨hraw, hnote⟩
  · obtain ⟨width, place, rfl, herror⟩ := Layout.settle_error hsettle
    exact .inr ⟨width, place, hphase width rfl, herror, hnote⟩

theorem length_note (h : (lexer.pull iterator).outcome = .entry entry) :
    (lexer.pull iterator).note.toList.length = (errorsIn [entry]).length := by
  cases entry with
  | token token =>
    rw [note_of_token h]
    rfl
  | error error =>
    obtain ⟨-, hnote⟩ | ⟨width, place, -, -, hnote⟩ := note_of_error h
    all_goals
      rw [hnote]
      rfl

end Lexer

/-! ### The newline of a width -/

/-- A width that is held goes back to the last newline that was yielded, with nothing behind that
newline but the blocks that were closed there. -/
def Iterator.Measures (past : List Entry) : Iterator → Prop
  | .layout phase => ∀ width ∈ phase.width?, ∃ newline place, phase.place? = some place ∧
      Layout.lineWidth newline.value = width ∧
      Layout.Behind newline past (Layout.inconsistentDedent place)
  | _ => True

theorem Iterator.measures_tokens (past : List Entry) : Iterator.tokens.Measures past :=
  fun _ hwidth => by cases hwidth

namespace Layout

variable {widths widths' : Widths} {phase phase' : Phase} {entry mark : Entry} {past : List Entry}

theorem Behind.closing {newline : Token} (h : Behind newline past mark)
    (hclosing : entry.IsClosing) : Behind newline (past ++ [entry]) mark := by
  obtain ⟨before, closings, rfl, hclosings⟩ := h.stands
  refine ⟨h.kind, ⟨before, closings ++ [entry], by simp, ?_⟩, h.place⟩
  exact List.forall_mem_append.2 ⟨hclosings, List.forall_mem_singleton.2 hclosing⟩

theorem measures_after (past : List Entry) (entry : Entry) :
    Iterator.Measures (past ++ [entry]) (.layout (after entry)) := by
  intro width hwidth
  obtain ⟨newline, rfl, hkind, hmeasured, hplace⟩ := exists_newline_of_mem_width? hwidth
  exact ⟨newline, _, hplace, hmeasured, hkind, ⟨past, [], rfl, List.forall_mem_nil _⟩, rfl⟩

theorem measures_settle (hphase : Iterator.Measures past (.layout phase))
    (h : settle widths phase = some (entry, phase', widths')) :
    Iterator.Measures (past ++ [entry]) (.layout phase') := by
  intro width hwidth
  obtain ⟨hclosing, hwidths, hplaces⟩ | ⟨-, rfl, -⟩ := settle_isClosing_or_isMeasured h
  · rw [hwidths] at hwidth
    obtain ⟨newline, place, hplace, hmeasured, hbehind⟩ := hphase width hwidth
    exact ⟨newline, place, hplaces.trans hplace, hmeasured, hbehind.closing hclosing⟩
  · cases hwidth

end Layout

theorem Lexer.Pulls.measures {lexer lexer' : Lexer} {iterator iterator' : Iterator}
    {outcome : Outcome} {past : List Entry} (h : lexer.Pulls iterator outcome iterator' lexer')
    (hmeasures : iterator.Measures past) : iterator'.Measures (past ++ outcome.yielded) := by
  induction h with
  | due hsettle => exact Layout.measures_settle hmeasures hsettle
  | @seek _ _ entry => exact Layout.measures_after past entry
  | seekEnd _ _ _ _ ih => exact ih nofun
  | _ => trivial

/-! ### Runs -/

/-- What is put down about an error that is yielded behind some entries, with the lexer as the pull
leaves it. -/
inductive Note.Tells (lexer : Lexer) (front : List Entry) (error : LexError) : Note → Prop where
  | raw (isRaw : (Entry.error error).isRaw = true) : Tells lexer front error (.rawError error)
  | inconsistentDedent {newline : Token} (kind : error.kind = .inconsistentDedent)
      (behind : Layout.Behind newline front (.error error)) :
      Tells lexer front error (.inconsistentDedent (Layout.lineWidth newline.value) error.span
        lexer.widths.levels)

theorem Sharing.after_pull {lexer : Lexer} {iterator : Iterator} {entry : Entry}
    (h : (lexer.pull iterator).outcome = .entry entry) (yielded : List Entry) (n : Nat) :
    after { lexer := lexer, iterators := [iterator], yielded := yielded }
        (List.replicate (n + 1) (.pull 0)) =
      after { lexer := (lexer.pull iterator).lexer, iterators := [(lexer.pull iterator).iterator],
              yielded := yielded ++ [entry] } (List.replicate n (.pull 0)) := by
  have hpull : step { lexer := lexer, iterators := [iterator], yielded := yielded } (.pull 0) =
      { lexer := (lexer.pull iterator).lexer, iterators := [(lexer.pull iterator).iterator],
        yielded := yielded ++ [entry] } := by
    rw [step_pull rfl, pull, h]
    rfl
  rw [List.replicate_succ, after, List.foldl_cons, hpull, after]

theorem Sharing.after_pulls {sharing : Sharing} {lexer : Lexer} {iterator : Iterator}
    {yielded : List Entry} {entry : Entry} {n : Nat}
    (hpulled : sharing.after (List.replicate n (.pull 0)) =
      { lexer := lexer, iterators := [iterator], yielded := yielded })
    (h : (lexer.pull iterator).outcome = .entry entry) :
    sharing.after (List.replicate (n + 1) (.pull 0)) =
      { lexer := (lexer.pull iterator).lexer, iterators := [(lexer.pull iterator).iterator],
        yielded := yielded ++ [entry] } := by
  rw [after] at hpulled
  rw [List.replicate_succ', after, List.foldl_append, hpulled]
  exact after_pull h yielded 0

namespace Lexer

theorem tells_of_error {lexer : Lexer} {iterator : Iterator} {past : List Entry} {error : LexError}
    (hmeasures : iterator.Measures past)
    (h : (lexer.pull iterator).outcome = .entry (.error error)) :
    ∃ note, (lexer.pull iterator).note = some note ∧
      note.Tells (lexer.pull iterator).lexer past error := by
  obtain ⟨hraw, hnote⟩ | ⟨width, place, rfl, herror, hnote⟩ := note_of_error h
  · exact ⟨_, hnote, .raw hraw⟩
  · obtain ⟨newline, place, hplace, rfl, hbehind⟩ := hmeasures width rfl
    obtain rfl := Option.some.inj hplace
    rw [← herror] at hbehind
    have hkind : error.kind = .inconsistentDedent := by
      obtain rfl := Entry.error.inj herror
      rfl
    exact ⟨_, hnote, .inconsistentDedent hkind hbehind⟩

/-- **Notes mirror errors.** A permissive run puts down one note for each error, in their order. -/
theorem length_notes_run (lexer : Lexer) (iterator : Iterator) :
    (lexer.run false iterator).notes.length =
      (errorsIn (lexer.run false iterator).entries).length := by
  induction lexer, iterator using pull_induction with
  | finished lexer iterator houtcome =>
    rw [run_of_finished houtcome]
    rfl
  | failed lexer iterator fault houtcome =>
    rw [run_of_failed houtcome]
    rfl
  | entry lexer iterator entry houtcome ih =>
    rw [run_of_entry houtcome (.inl rfl)]
    simp only [Run.after]
    rw [errorsIn_cons entry, List.length_append, List.length_append, length_note houtcome, ih]

/-- An entry of a run comes when all that stands before it has been pulled, and what is put down
about it stands behind the notes on the errors before it. -/
theorem exists_pull_run (lexer : Lexer) (iterator : Iterator) {past yielded : List Entry}
    (hmeasures : iterator.Measures past) {front back : List Entry} {entry : Entry}
    (h : (lexer.run false iterator).entries = front ++ entry :: back) :
    ∃ lexer' iterator' earlier later, iterator'.Measures (past ++ front) ∧
      (lexer'.pull iterator').outcome = .entry entry ∧
      Sharing.after { lexer := lexer, iterators := [iterator], yielded := yielded }
          (List.replicate front.length (.pull 0)) =
        { lexer := lexer', iterators := [iterator'], yielded := yielded ++ front } ∧
      (lexer.run false iterator).notes = earlier ++ (lexer'.pull iterator').note.toList ++ later ∧
      earlier.length = (errorsIn front).length := by
  induction lexer, iterator using pull_induction generalizing past yielded front with
  | finished lexer iterator houtcome =>
    rw [run_of_finished houtcome] at h
    simp at h
  | failed lexer iterator fault houtcome =>
    rw [run_of_failed houtcome] at h
    simp at h
  | entry lexer iterator first houtcome ih =>
    have hpulls := lexer.pulls_pull iterator
    rw [run_of_entry houtcome (.inl rfl)] at h ⊢
    obtain ⟨rfl, hhead⟩ | ⟨front, rfl, hothers⟩ := List.cons_eq_append_iff.1 h
    · obtain ⟨rfl, -⟩ := List.cons.inj hhead
      rw [List.append_nil, List.append_nil]
      exact ⟨lexer, iterator, [], _, hmeasures, houtcome, rfl, rfl, rfl⟩
    · have hnext := hpulls.measures hmeasures
      rw [houtcome] at hnext
      obtain ⟨lexer', iterator', earlier, later, hmeasures', houtcome', hafter, hnotes, hlength⟩ :=
        @ih (past ++ [first]) (yielded ++ [first]) hnext front hothers
      rw [List.length_cons, Sharing.after_pull houtcome, List.append_cons past first front,
        List.append_cons yielded first front]
      refine ⟨lexer', iterator', (lexer.pull iterator).note.toList ++ earlier, later, hmeasures',
        houtcome', hafter, ?_, ?_⟩
      · rw [List.append_assoc, List.append_assoc, ← List.append_assoc earlier, ← hnotes]
        rfl
      · rw [errorsIn_cons, List.length_append, List.length_append, length_note houtcome, hlength]

theorem exists_note_run (lexer : Lexer) (iterator : Iterator) {past yielded : List Entry}
    (hmeasures : iterator.Measures past) {front back : List Entry} {error : LexError}
    (h : (lexer.run false iterator).entries = front ++ .error error :: back) :
    ∃ note, (lexer.run false iterator).notes[(errorsIn front).length]? = some note ∧
      note.Tells (Sharing.after { lexer := lexer, iterators := [iterator], yielded := yielded }
        (List.replicate (front.length + 1) (.pull 0))).lexer (past ++ front) error := by
  obtain ⟨lexer', iterator', earlier, later, hmeasures', houtcome, hafter, hnotes, hlength⟩ :=
    @exists_pull_run lexer iterator past yielded hmeasures _ _ _ h
  obtain ⟨note, hnote, htells⟩ := tells_of_error hmeasures' houtcome
  refine ⟨note, ?_, ?_⟩
  · rw [hnotes, hnote, ← hlength]
    simp
  · rw [Sharing.after_pulls hafter houtcome]
    exact htells

theorem notes_run_strict (lexer : Lexer) (iterator : Iterator) :
    (lexer.run true iterator).notes = (lexer.run false iterator).notes.take 1 := by
  induction lexer, iterator using pull_induction with
  | finished lexer iterator houtcome => rw [run_of_finished houtcome, run_of_finished houtcome]; rfl
  | failed lexer iterator fault houtcome => rw [run_of_failed houtcome, run_of_failed houtcome]; rfl
  | entry lexer iterator entry houtcome ih =>
    rw [run_of_entry houtcome (.inl rfl)]
    cases entry with
    | token token =>
      rw [run_of_entry houtcome (.inr rfl), Run.after, Run.after, note_of_token houtcome]
      exact ih
    | error error =>
      have hlength := length_note houtcome
      rw [run_of_error houtcome]
      simp only [Run.after]
      exact (List.take_left' hlength).symm

end Lexer

/-! ### Sources -/

section Sources

variable {settings permissive : Settings}

theorem notes_lexRun_eq (hpermissive : permissive.isStrict = false)
    (hsame : settings.distinguishes = permissive.distinguishes) (source : String) :
    (lexRun settings source).notes =
      if settings.isStrict then (lexRun permissive source).notes.take 1
      else (lexRun permissive source).notes := by
  cases hstrict : settings.isStrict with
  | false =>
    rw [lexRun_permissive hstrict, lexRun_permissive hpermissive, Lexer.ofSettings, hsame]
    rfl
  | true =>
    rw [lexRun_strict hstrict hsame, Lexer.notes_run_strict, lexRun_permissive hpermissive]
    rfl

/-- The notes on a source: one for each error of the permissive run, in the order of the stream, or
under strict settings one for the first of them. -/
theorem notes_lexRun (hpermissive : permissive.isStrict = false)
    (hsame : settings.distinguishes = permissive.distinguishes) (source : String) :
    let lexer := Lexer.ofSettings permissive source
    let stream := (lexRun permissive source).entries
    let errors := if settings.isStrict then (errorsIn stream).take 1 else errorsIn stream
    let notes := (lexRun settings source).notes
    notes.length = errors.length ∧
      ∀ front error back, stream = front ++ .error error :: back →
        ∀ note, notes[(errorsIn front).length]? = some note →
          note.Tells (Sharing.after { lexer := lexer }
            (.tokens :: List.replicate (front.length + 1) (.pull 0))).lexer front error := by
  intro lexer stream errors notes
  have hrun : lexRun permissive source = lexer.run false .tokens :=
    lexRun_permissive hpermissive source
  have hlength : (lexRun permissive source).notes.length = (errorsIn stream).length := by
    rw [show stream = (lexer.run false .tokens).entries from congrArg Run.entries hrun, hrun]
    exact lexer.length_notes_run .tokens
  have hnotes : notes = _ := notes_lexRun_eq hpermissive hsame source
  constructor
  · rw [hnotes]
    change _ = (if settings.isStrict then (errorsIn stream).take 1 else errorsIn stream).length
    split
    · rw [List.length_take, List.length_take, hlength]
    · exact hlength
  · intro front error back hsplit note hnote
    obtain ⟨others, hall⟩ : notes <+: (lexRun permissive source).notes := by
      rw [hnotes]
      split
      · exact List.take_prefix 1 _
      · exact List.prefix_rfl
    have hentries : (lexer.run false .tokens).entries = front ++ .error error :: back := by
      rw [← hrun]
      exact hsplit
    obtain ⟨found, hfound, htells⟩ := @Lexer.exists_note_run lexer .tokens [] []
      (Iterator.measures_tokens []) front back error hentries
    rw [← hrun, ← hall, List.getElem?_append_left (List.getElem?_eq_some_iff.1 hnote).1,
      hnote] at hfound
    obtain rfl := Option.some.inj hfound
    exact htells

end Sources

end Offside
