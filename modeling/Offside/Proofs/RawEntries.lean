import Mathlib.Data.List.TakeWhile
import Offside.Proofs.Arrangement
import Offside.Proofs.Sharing

/-!
# Raw entries

However iterators are pulled, the raw entries come in the order of the source, each of them once:
`raw_entries_shared`. What carries this is that a pull takes from the front of what the scanner
still has to read just the raw entries that it yields. For a run it means that layout only adds to
the raw stream and comes to the same end: `Lexer.run_remaining`.
-/

namespace Offside

def rawEntries (entries : List Entry) : List Entry :=
  entries.filter Entry.isRaw

@[simp]
theorem rawEntries_append (first second : List Entry) :
    rawEntries (first ++ second) = rawEntries first ++ rawEntries second :=
  List.filter_append first second

theorem rawEntries_singleton_of_isRaw {entry : Entry} (h : entry.isRaw = true) :
    rawEntries [entry] = [entry] :=
  List.filter_cons_of_pos h

/-! ### Scanners -/

namespace Scanner

variable {distinguish : Bool} {scanner : Scanner} {entry : Entry}

theorem isRaw_of_next (h : (scanner.next distinguish).1 = .entry entry) : entry.isRaw = true := by
  obtain ⟨lexeme, -, hspelled, -⟩ := spelled_of_next h
  exact hspelled.isRaw

theorem skipBlanks_skipBlanks (scanner : Scanner) :
    scanner.skipBlanks.skipBlanks = scanner.skipBlanks := by
  have hhead := List.dropWhile_get_zero_not isBlank scanner.rest
  have htake : (scanner.rest.dropWhile isBlank).takeWhile isBlank = [] :=
    List.takeWhile_eq_nil_iff.2 hhead
  have hdrop : (scanner.rest.dropWhile isBlank).dropWhile isBlank =
      scanner.rest.dropWhile isBlank :=
    List.dropWhile_eq_self_iff.2 hhead
  simp [skipBlanks, pass, htake, hdrop]

theorem next_skipBlanks (distinguish : Bool) (scanner : Scanner) :
    scanner.skipBlanks.next distinguish = scanner.next distinguish := by
  rw [next, skipBlanks_skipBlanks, next]

theorem next_of_finished (h : (scanner.next distinguish).1 = .finished) :
    (scanner.next distinguish).2 = scanner.skipBlanks ∧ scanner.skipBlanks.rest = [] := by
  obtain ⟨hrest, hnext⟩ | ⟨first, rest, -, ⟨fault, -, hnext⟩ | ⟨reading, -, hnext⟩⟩ :=
    next_cases distinguish scanner
  · rw [hnext]
    exact ⟨rfl, hrest⟩
  · rw [hnext] at h
    cases h
  · rw [hnext] at h
    cases h

theorem next_of_failed {fault : Text.TooManyDigits}
    (h : (scanner.next distinguish).1 = .failed fault) :
    (scanner.next distinguish).2 = scanner.skipBlanks := by
  obtain ⟨-, hnext⟩ | ⟨first, rest, -, ⟨fault, -, hnext⟩ | ⟨reading, -, hnext⟩⟩ :=
    next_cases distinguish scanner
  · rw [hnext] at h
    cases h
  · rw [hnext]
  · rw [hnext] at h
    cases h

theorem stream_skipBlanks (distinguish : Bool) (scanner : Scanner) :
    scanner.skipBlanks.stream distinguish = scanner.stream distinguish :=
  stream_congr (next_skipBlanks distinguish scanner)

theorem stream_of_rest_eq_nil (h : scanner.rest = []) : scanner.stream distinguish = {} := by
  obtain ⟨rest, position, offset⟩ := scanner
  obtain rfl : rest = [] := h
  exact stream_nil

end Scanner

/-! ### Pulls -/

namespace Lexer

variable {lexer lexer' : Lexer} {iterator iterator' : Iterator} {outcome : Outcome}

def remaining (lexer : Lexer) : RawStream :=
  lexer.scanner.stream lexer.distinguish

theorem remaining_of_next_entry {entry : Entry}
    (h : (lexer.scanner.next lexer.distinguish).1 = .entry entry) :
    lexer.moved.remaining.prepend (rawEntries [entry]) = lexer.remaining := by
  rw [rawEntries_singleton_of_isRaw (Scanner.isRaw_of_next h)]
  exact (Scanner.stream_of_entry h).symm

theorem remaining_of_next_finished
    (h : (lexer.scanner.next lexer.distinguish).1 = .finished) :
    lexer.moved.remaining = lexer.remaining := by
  rw [remaining, moved, (Scanner.next_of_finished h).1]
  exact Scanner.stream_skipBlanks _ _

theorem remaining_of_next_failed {fault : Text.TooManyDigits}
    (h : (lexer.scanner.next lexer.distinguish).1 = .failed fault) :
    lexer.moved.remaining = lexer.remaining := by
  rw [remaining, moved, Scanner.next_of_failed h]
  exact Scanner.stream_skipBlanks _ _

theorem moved_rest_of_finished (h : (lexer.scanner.next lexer.distinguish).1 = .finished) :
    lexer.moved.scanner.rest = [] := by
  rw [moved, (Scanner.next_of_finished h).1]
  exact (Scanner.next_of_finished h).2

end Lexer

namespace Layout

variable {widths widths' : Widths} {phase phase' : Phase} {entry : Entry}

theorem rawEntries_settle (h : settle widths phase = some (entry, phase', widths')) :
    rawEntries [entry] = [] := by
  obtain ⟨place, -, ⟨width, -, rfl, -⟩ | ⟨inner, -, rfl, -⟩ | ⟨rfl, -⟩⟩ := settle_cases h
  all_goals rfl

end Layout

namespace Lexer

variable {lexer lexer' : Lexer} {iterator iterator' : Iterator} {outcome : Outcome}

/-- **One pull.** The raw entries that are yielded are taken from the front of what is left. -/
theorem Pulls.prepend_remaining (h : lexer.Pulls iterator outcome iterator' lexer') :
    lexer'.remaining.prepend (rawEntries outcome.yielded) = lexer.remaining := by
  induction h with
  | raw hnext => exact remaining_of_next_entry hnext
  | seek _ _ hnext => exact remaining_of_next_entry hnext
  | rawEnd hnext => exact remaining_of_next_finished hnext
  | rawFail hnext => exact remaining_of_next_failed hnext
  | seekFail _ _ hnext => exact remaining_of_next_failed hnext
  | due hsettle =>
    rw [Outcome.yielded, Layout.rawEntries_settle hsettle]
    rfl
  | seekEnd _ _ hnext _ ih => exact ih.trans (remaining_of_next_finished hnext)
  | ended => rfl
  | closed => rfl

theorem Pulls.remaining_of_failed {fault : Text.TooManyDigits}
    (h : lexer.Pulls iterator outcome iterator' lexer') (houtcome : outcome = .failed fault) :
    lexer.remaining = { fault := some fault } := by
  induction h with
  | rawFail hnext =>
    obtain rfl := Outcome.failed.inj houtcome
    exact Scanner.stream_of_failed hnext
  | seekFail _ _ hnext =>
    obtain rfl := Outcome.failed.inj houtcome
    exact Scanner.stream_of_failed hnext
  | seekEnd _ _ hnext _ ih => exact (remaining_of_next_finished hnext).symm.trans (ih houtcome)
  | _ => cases houtcome

/-- Blocks are closed for the end of the input only where nothing is left. -/
def Drained (lexer : Lexer) (iterator : Iterator) : Prop :=
  (∃ place, iterator = .layout (.flush place)) → lexer.scanner.rest = []

theorem drained_of_new (hiterator : iterator = .raw ∨ iterator = .tokens) :
    lexer.Drained iterator := by
  rintro ⟨place, rfl⟩
  obtain h | h := hiterator <;> cases h

theorem Pulls.rest_eq_nil (h : lexer.Pulls iterator outcome iterator' lexer')
    (hrest : lexer.scanner.rest = []) : lexer'.scanner.rest = [] := by
  have hmoved {other : Lexer} (hother : other.scanner.rest = []) :
      other.moved.scanner.rest = [] := by
    have hle := next_rest_length_le other.distinguish other.scanner
    rw [hother] at hle
    exact List.length_eq_zero_iff.1 (Nat.le_zero.1 hle)
  induction h with
  | ended => exact hrest
  | due => exact hrest
  | closed => exact hrest
  | seekEnd _ _ _ _ ih => exact ih (hmoved hrest)
  | _ => exact hmoved hrest

theorem Pulls.drained (h : lexer.Pulls iterator outcome iterator' lexer')
    (hdrained : lexer.Drained iterator) : lexer'.Drained iterator' := by
  induction h with
  | @due _ phase _ _ _ hsettle =>
    rintro ⟨place, hphase⟩
    obtain rfl := Iterator.layout.inj hphase
    have hflush : ∃ other, phase = .flush other := by
      by_contra hother
      exact Layout.settle_ne_flush hsettle hother ⟨place, rfl⟩
    exact hdrained (hflush.imp fun _ => congrArg Iterator.layout)
  | @seek _ _ entry _ _ _ =>
    rintro ⟨place, hphase⟩
    exact absurd ⟨place, Iterator.layout.inj hphase⟩ (Layout.after_ne_flush entry)
  | seekEnd _ _ hnext _ ih => exact ih fun _ => moved_rest_of_finished hnext
  | _ => exact fun ⟨place, hphase⟩ => by cases hphase

theorem Pulls.rest_of_finished (h : lexer.Pulls iterator outcome iterator' lexer')
    (hdrained : lexer.Drained iterator) (hiterator : iterator ≠ .ended)
    (houtcome : outcome = .finished) : lexer'.scanner.rest = [] := by
  induction h with
  | ended => exact absurd rfl hiterator
  | rawEnd hnext => exact moved_rest_of_finished hnext
  | closed => exact hdrained ⟨_, rfl⟩
  | seekEnd _ _ hnext _ ih =>
    exact ih (fun _ => moved_rest_of_finished hnext) nofun houtcome
  | _ => cases houtcome

/-! ### Runs -/

theorem Pulls.ne_ended_of_entry {entry : Entry}
    (h : lexer.Pulls iterator outcome iterator' lexer') (houtcome : outcome = .entry entry) :
    iterator' ≠ .ended := by
  induction h with
  | seekEnd _ _ _ _ ih => exact ih houtcome
  | raw | due | seek => exact nofun
  | _ => cases houtcome

/-- Layout only adds to the raw stream, and it comes to the same end. -/
theorem run_remaining (lexer : Lexer) (iterator : Iterator) (hlive : iterator ≠ .ended)
    (hdrained : lexer.Drained iterator) :
    rawEntries (lexer.run false iterator).entries = lexer.remaining.entries ∧
      (lexer.run false iterator).ending = lexer.remaining.ending := by
  induction lexer, iterator using pull_induction with
  | finished lexer iterator houtcome =>
    have hpulls := lexer.pulls_pull iterator
    have hrest := hpulls.rest_of_finished hdrained hlive houtcome
    have hnothing : lexer.remaining = {} := by
      rw [← hpulls.prepend_remaining, houtcome, remaining, Scanner.stream_of_rest_eq_nil hrest]
      rfl
    rw [run_of_finished houtcome, hnothing]
    exact ⟨rfl, rfl⟩
  | failed lexer iterator fault houtcome =>
    rw [run_of_failed houtcome, (lexer.pulls_pull iterator).remaining_of_failed houtcome]
    exact ⟨rfl, rfl⟩
  | entry lexer iterator entry houtcome ih =>
    have hpulls := lexer.pulls_pull iterator
    obtain ⟨hentries, hending⟩ := ih (hpulls.ne_ended_of_entry houtcome) (hpulls.drained hdrained)
    rw [run_of_entry houtcome (.inl rfl), ← hpulls.prepend_remaining, houtcome]
    refine ⟨?_, hending⟩
    calc rawEntries (entry :: ((lexer.pull iterator).lexer.run false
            (lexer.pull iterator).iterator).entries)
        = rawEntries [entry] ++ rawEntries ((lexer.pull iterator).lexer.run false
            (lexer.pull iterator).iterator).entries := rawEntries_append [entry] _
      _ = rawEntries [entry] ++ (lexer.pull iterator).lexer.remaining.entries := by rw [hentries]

end Lexer

theorem rawEntries_tokens (settings : Settings) (source : String) (file : Option String) :
    rawEntries ((Lexer.ofSettings settings source file).run false .tokens).entries =
        (rawStream settings source).entries ∧
      ((Lexer.ofSettings settings source file).run false .tokens).ending =
        (rawStream settings source).ending :=
  Lexer.run_remaining _ .tokens nofun (Lexer.drained_of_new (.inr rfl))

/-- A permissive stream is that of a run, unless the raw stream is cut off by a literal. -/
theorem lex_of_permissive {settings : Settings} (h : settings.isStrict = false) (source : String)
    (file : Option String) :
    lex settings source file =
      match (rawStream settings source).fault with
      | none => .ok ((Lexer.ofSettings settings source).run false .tokens).entries
      | some fault => .error (.tooManyDigits fault) := by
  obtain ⟨-, hending⟩ := rawEntries_tokens settings source none
  rw [lex, lexRun, h, Run.result, hending, RawStream.ending]
  cases (rawStream settings source).fault <;> rfl

/-- A permissive stream is the arrangement of the raw one, unless that is cut off by a literal. -/
theorem lex_eq_arrange {settings : Settings} (h : settings.isStrict = false) (source : String)
    (file : Option String) :
    lex settings source file =
      match (rawStream settings source).fault with
      | none => .ok ((Layout.arrange (Utf8.size source.toList) []
          (rawStream settings source).entries).1.map Prod.fst)
      | some fault => .error (.tooManyDigits fault) := by
  rw [lex_of_permissive h]
  cases hfault : (rawStream settings source).fault with
  | some fault => rfl
  | none =>
    obtain ⟨hentries, -⟩ := lexRun_of_rawStream (congrArg (RawStream.mk _) hfault)
    exact congrArg Except.ok hentries

theorem run_of_lex {settings : Settings} {source : String} {file : Option String}
    {entries : List Entry} (hpermissive : settings.isStrict = false)
    (h : lex settings source file = .ok entries) :
    ((Lexer.ofSettings settings source file).run false .tokens).entries = entries ∧
      ((Lexer.ofSettings settings source file).run false .tokens).ending = .finished := by
  rw [lex_eq_arrange hpermissive] at h
  split at h
  · obtain ⟨hentries, hending⟩ := (Lexer.ofSettings settings source file).run_tokens ‹_›
    exact ⟨hentries.trans (Except.ok.inj h), hending⟩
  · cases h

theorem rawEntries_of_lex {settings : Settings} {source : String} {file : Option String}
    {entries : List Entry} (hpermissive : settings.isStrict = false)
    (h : lex settings source file = .ok entries) :
    (rawStream settings source).fault = none ∧
      (rawStream settings source).entries = rawEntries entries := by
  rw [lex_of_permissive hpermissive] at h
  split at h
  · obtain rfl := Except.ok.inj h
    exact ⟨‹_›, (rawEntries_tokens settings source none).1.symm⟩
  · cases h

/-! ### Sharing a lexer -/

namespace Sharing

variable {sharing : Sharing} {scanned : List Entry} {number : Nat} {iterator : Iterator}

/-- What was yielded and what is left make up the whole raw stream. -/
structure Whole (scanned : List Entry) (sharing : Sharing) : Prop where
  conserved : rawEntries sharing.yielded ++ sharing.lexer.remaining.entries = scanned
  drained : ∀ iterator ∈ sharing.iterators, sharing.lexer.Drained iterator

theorem whole_of_lexer (lexer : Lexer) : Whole lexer.remaining.entries { lexer := lexer } :=
  ⟨rfl, List.forall_mem_nil _⟩

theorem Whole.pull (h : sharing.Whole scanned)
    (hiterator : sharing.iterators[number]? = some iterator) :
    (sharing.pull number iterator).Whole scanned := by
  have hpulls := sharing.lexer.pulls_pull iterator
  constructor
  · have hremaining := congrArg RawStream.entries hpulls.prepend_remaining
    rw [RawStream.entries_prepend] at hremaining
    rw [Sharing.pull, rawEntries_append, List.append_assoc, hremaining, h.conserved]
  · intro other hother
    obtain hold | rfl := List.mem_or_eq_of_mem_set hother
    · exact fun hflush => hpulls.rest_eq_nil (h.drained other hold hflush)
    · exact hpulls.drained (h.drained iterator (List.mem_of_getElem? hiterator))

theorem Whole.after (h : sharing.Whole scanned) (moves : List Move) :
    (sharing.after moves).Whole scanned := by
  refine forall_after ?_ (fun hiterator h => h.pull hiterator) h moves
  intro sharing iterator hnew h
  refine ⟨h.conserved, fun other hother => ?_⟩
  obtain hold | hlast := List.mem_append.1 hother
  · exact h.drained other hold
  · rw [List.mem_singleton.1 hlast]
    exact Lexer.drained_of_new hnew

theorem rest_after (h : sharing.lexer.scanner.rest = []) (moves : List Move) :
    (sharing.after moves).lexer.scanner.rest = [] := by
  refine forall_after (P := fun sharing => sharing.lexer.scanner.rest = []) ?_ ?_ h moves
  · exact fun _ h => h
  · exact fun _ h => (Lexer.pulls_pull _ _).rest_eq_nil h

end Sharing

/-- **No raw entry is lost, duplicated or reordered.** Whatever iterators are made over a lexer and
whatever is pulled from them in whatever order, the raw entries that they have yielded together are
a prefix of what a single scan yields. From the pull on in which one of them comes to its normal end
they are all of it. -/
theorem raw_entries_shared (settings : Settings) (source : String) (file : Option String)
    (moves : List Move) :
    let sharing := Sharing.after { lexer := Lexer.ofSettings settings source file } moves
    let scanned := ((Lexer.ofSettings settings source).run false .raw).entries
    rawEntries sharing.yielded <+: scanned ∧
      ∀ number iterator, sharing.iterators[number]? = some iterator → iterator ≠ .ended →
        (sharing.lexer.pull iterator).outcome = .finished →
          ∀ later, rawEntries ((sharing.step (.pull number)).after later).yielded = scanned := by
  intro sharing scanned
  have hscanned : (Lexer.ofSettings settings source file).remaining.entries = scanned :=
    ((Lexer.ofSettings settings source).run_raw).1.symm
  have hwhole : sharing.Whole scanned :=
    Sharing.Whole.after (hscanned ▸ Sharing.whole_of_lexer _) moves
  refine ⟨⟨_, hwhole.conserved⟩, ?_⟩
  intro number iterator hiterator hlive hfinished later
  have hpulls := sharing.lexer.pulls_pull iterator
  have hdrained := hwhole.drained iterator (List.mem_of_getElem? hiterator)
  have hpulled : (sharing.pull number iterator).lexer.scanner.rest = [] :=
    hpulls.rest_of_finished hdrained hlive hfinished
  have hrest := Sharing.rest_after hpulled later
  have hconserved := ((hwhole.pull hiterator).after later).conserved
  rw [Lexer.remaining, Scanner.stream_of_rest_eq_nil hrest, List.append_nil] at hconserved
  rw [Sharing.step_pull hiterator]
  exact hconserved

/-- Two iterators share a source and one of them comes to its end. A third one that is made then
has nothing more to yield. -/
theorem raw_entries_shared_indented :
    let moves : List Move :=
      [.tokens, .raw, .pull 0, .pull 0, .pull 1, .pull 0]
    let sharing := Sharing.after { lexer := Lexer.ofSettings {} "a\n b" } moves
    let scanned : List Entry :=
      [.token ⟨.identifier, ⟨0, 1⟩, .text "a"⟩, .token ⟨.newline, ⟨1, 3⟩, .text "\n "⟩,
        .token ⟨.identifier, ⟨3, 4⟩, .text "b"⟩]
    sharing.iterators[1]? = some .raw ∧ Iterator.raw ≠ .ended ∧
      (sharing.lexer.pull .raw).outcome = .finished ∧
      rawEntries ((sharing.step (.pull 1)).after [.tokens, .pull 2, .pull 0]).yielded = scanned ∧
      ((Lexer.ofSettings {} "a\n b").run false .raw).entries = scanned := by
  intro moves sharing scanned
  have hiterator : sharing.iterators[1]? = some .raw := rfl
  have hlive : Iterator.raw ≠ .ended := by decide
  have hfinished : (sharing.lexer.pull .raw).outcome = .finished := rfl
  have hyielded :
      rawEntries ((sharing.step (.pull 1)).after [.tokens, .pull 2, .pull 0]).yielded = scanned :=
    rfl
  obtain ⟨-, hwhole⟩ := raw_entries_shared {} "a\n b" none moves
  have hscanned := hwhole 1 .raw hiterator hlive hfinished [.tokens, .pull 2, .pull 0]
  exact ⟨hiterator, hlive, hfinished, hyielded, hscanned.symm.trans hyielded⟩

end Offside
