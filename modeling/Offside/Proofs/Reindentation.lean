import Offside.Proofs.BlankLines

/-!
# Reindentation

Layout compares widths and does nothing else with them. So a text whose lines are indented by other
widths in the same order lexes to the same stream, but for places and the characters of newlines:
`reindentation`. The proof lets two lexers go in lockstep, one over each text. What one of them
finds the other finds, with its widths mapped, whatever iterators are made over them and in whatever
order they are pulled.
-/

namespace Offside

open Lexeme (Reading)

variable {f : Nat → Nat}

/-! ### Texts -/

/-- A text whose lines are indented anew. A run of newlines reaches as far as it can, and as many
blanks as `f` says take the place of those that stand behind its last newline. -/
inductive Reindented (f : Nat → Nat) : List Char → List Char → Prop where
  | nil : Reindented f [] []
  | char {c : Char} {text text' : List Char} (ne_newline : c ≠ '\n')
      (tail : Reindented f text text') : Reindented f (c :: text) (c :: text')
  | run {lead blanks blanks' text text' : List Char} (layout : ∀ c ∈ lead, isLayout c = true)
      (blank : ∀ c ∈ blanks, isBlank c = true) (ends : ∀ c ∈ text.head?, isLayout c = false)
      (blank' : ∀ c ∈ blanks', isBlank c = true) (length_eq : blanks'.length = f blanks.length)
      (tail : Reindented f text text') :
      Reindented f (lead ++ '\n' :: blanks ++ text) (lead ++ '\n' :: blanks' ++ text')

namespace Reindented

variable {first : Char} {text text' rest : List Char}

theorem head?_eq (h : Reindented f text text') : text'.head? = text.head? := by
  cases h with
  | nil => rfl
  | char => rfl
  | @run lead => cases lead <;> rfl

theorem exists_tail (h : Reindented f (first :: rest) text') (hfirst : first ≠ '\n') :
    ∃ rest', text' = first :: rest' ∧ Reindented f rest rest' := by
  generalize htext : first :: rest = text at h
  cases h with
  | nil => cases htext
  | char _ tail =>
    obtain ⟨rfl, rfl⟩ := List.cons.inj htext
    exact ⟨_, rfl, tail⟩
  | @run lead blanks blanks' text text' layout blank ends blank' length_eq tail =>
    cases lead with
    | nil =>
      obtain ⟨rfl, -⟩ := List.cons.inj htext
      exact absurd rfl hfirst
    | cons c lead =>
      obtain ⟨rfl, rfl⟩ := List.cons.inj htext
      exact ⟨_, rfl, .run (List.forall_mem_cons.1 layout).2 blank ends blank' length_eq tail⟩

theorem takeWhile {p : Char → Bool} (hp : p '\n' = false) (h : Reindented f text text') :
    text'.takeWhile p = text.takeWhile p ∧
      Reindented f (text.dropWhile p) (text'.dropWhile p) := by
  induction text generalizing text' with
  | nil =>
    obtain rfl := List.head?_eq_none_iff.1 h.head?_eq
    exact ⟨rfl, h⟩
  | cons c text ih =>
    by_cases hc : p c = true
    · have hne : c ≠ '\n' := by
        rintro rfl
        rw [hp] at hc
        cases hc
      obtain ⟨text', rfl, htail⟩ := h.exists_tail hne
      obtain ⟨htake, hdrop⟩ := ih htail
      rw [List.takeWhile_cons_of_pos hc, List.takeWhile_cons_of_pos hc,
        List.dropWhile_cons_of_pos hc, List.dropWhile_cons_of_pos hc, htake]
      exact ⟨rfl, hdrop⟩
    · obtain ⟨text', rfl⟩ := List.head?_eq_some_iff.1 h.head?_eq
      rw [List.takeWhile_cons_of_neg hc, List.takeWhile_cons_of_neg hc,
        List.dropWhile_cons_of_neg hc, List.dropWhile_cons_of_neg hc]
      exact ⟨rfl, h⟩

end Reindented

/-! ### Lexemes -/

/-- A reading with its width mapped, if it has one. -/
def Lexeme.Reading.widen (f : Nat → Nat) : Reading → Reading
  | .token .newline (.number width) => .token .newline (.number (f width.toNat))
  | reading => reading

theorem profile_of_ne_newline {reading : Reading} (h : ∀ value, reading ≠ .token .newline value) :
    reading.profile = reading ∧ reading.widen f = reading := by
  cases reading with
  | error kind text => exact ⟨rfl, rfl⟩
  | token kind value =>
    cases kind with
    | newline => exact absurd rfl (h value)
    | _ => exact ⟨rfl, rfl⟩

theorem profile_run {lead blanks : List Char} (hblanks : ∀ c ∈ blanks, isBlank c = true) :
    (Reading.token .newline (.text (String.ofList (lead ++ '\n' :: blanks)))).profile =
      .token .newline (.number blanks.length) := by
  have hline : '\n' ∉ blanks := fun hmem => absurd (hblanks _ hmem) (by decide)
  rw [Reading.profile, Layout.lineWidth_text, String.toList_ofList,
    lastLine_append hline]

theorem Lexeme.munch_run {run rest text : List Char} (hrun : ∀ c ∈ run, isLayout c = true)
    (hne : run ≠ []) (hends : ∀ c ∈ rest.head?, isLayout c = false)
    (htext : '\n' :: text = run ++ rest) : munch '\n' text = (run, rest) := by
  obtain ⟨c, run, rfl⟩ := List.exists_cons_of_ne_nil hne
  obtain ⟨rfl, rfl⟩ : '\n' = c ∧ text = run ++ rest := List.cons.inj htext
  obtain ⟨htake, hdrop⟩ := takeWhile_append_of_stop hends run
  have hall : ∀ c ∈ run, isLayout c = true := (List.forall_mem_cons.1 hrun).2
  rw [munch_newline, htake, hdrop, List.takeWhile_eq_self_iff.2 hall,
    List.dropWhile_eq_nil_iff.2 hall, List.nil_append]

namespace Reindented

variable {first : Char} {rest text' : List Char}

theorem munch_of_ne_newline (h : Reindented f rest text') (hfirst : first ≠ '\n') :
    (Lexeme.munch first text').1 = (Lexeme.munch first rest).1 ∧
      Reindented f (Lexeme.munch first rest).2 (Lexeme.munch first text').2 := by
  rw [Lexeme.munch, Lexeme.munch, if_neg hfirst, if_neg hfirst, h.head?_eq]
  split_ifs with hletter hdigit harrow
  · obtain ⟨htake, hdrop⟩ := h.takeWhile (p := isLetter) rfl
    exact ⟨congrArg (first :: ·) htake, hdrop⟩
  · obtain ⟨htake, hdrop⟩ := h.takeWhile (p := Text.isDigit) rfl
    exact ⟨congrArg (first :: ·) htake, hdrop⟩
  · obtain ⟨tail, rfl⟩ := List.head?_eq_some_iff.1 harrow.2
    obtain ⟨tail', rfl, htail⟩ := h.exists_tail (by decide)
    exact ⟨rfl, htail⟩
  · exact ⟨rfl, h⟩

theorem munch_newline (h : Reindented f ('\n' :: rest) text') :
    ∃ rest', text' = '\n' :: rest' ∧
      Reindented f (Lexeme.munch '\n' rest).2 (Lexeme.munch '\n' rest').2 ∧
      (Reading.token .newline (.text (String.ofList (Lexeme.munch '\n' rest').1))).profile =
        (Reading.token .newline
          (.text (String.ofList (Lexeme.munch '\n' rest).1))).profile.widen f := by
  obtain ⟨rest', rfl⟩ := List.head?_eq_some_iff.1 h.head?_eq
  generalize htext : '\n' :: rest = text, htext' : '\n' :: rest' = text' at h
  cases h with
  | nil => cases htext
  | char ne_newline =>
    obtain ⟨rfl, -⟩ := List.cons.inj htext
    exact absurd rfl ne_newline
  | @run lead blanks blanks' text text' layout blank ends blank' length_eq tail =>
    have hlayout {blanks : List Char} (blank : ∀ c ∈ blanks, isBlank c = true) :
        ∀ c ∈ lead ++ '\n' :: blanks, isLayout c = true :=
      List.forall_mem_append.2 ⟨layout, List.forall_mem_cons.2
        ⟨rfl, fun c hc => isLayout_of_isBlank (blank c hc)⟩⟩
    have hmunch := Lexeme.munch_run (hlayout blank) (by simp) ends htext
    have hmunch' := Lexeme.munch_run (hlayout blank') (by simp) (tail.head?_eq ▸ ends) htext'
    refine ⟨rest', htext'.symm, ?_⟩
    rw [hmunch, hmunch', profile_run blank, profile_run blank', length_eq]
    exact ⟨tail, rfl⟩

theorem classify (h : Reindented f (first :: rest) text') (distinguish : Bool) :
    ∃ rest', text' = first :: rest' ∧
      Reindented f (Lexeme.munch first rest).2 (Lexeme.munch first rest').2 ∧
      ((∃ fault, Lexeme.classify distinguish first (Lexeme.munch first rest).1 = .error fault ∧
          Lexeme.classify distinguish first (Lexeme.munch first rest').1 = .error fault) ∨
        ∃ reading reading',
          Lexeme.classify distinguish first (Lexeme.munch first rest).1 = .ok reading ∧
          Lexeme.classify distinguish first (Lexeme.munch first rest').1 = .ok reading' ∧
          reading'.profile = reading.profile.widen f) := by
  by_cases hfirst : first = '\n'
  · subst hfirst
    obtain ⟨rest', rfl, htail, hwidth⟩ := h.munch_newline
    exact ⟨rest', rfl, htail, .inr ⟨_, _, rfl, rfl, hwidth⟩⟩
  · obtain ⟨rest', rfl, htail⟩ := h.exists_tail hfirst
    obtain ⟨hlexeme, hmunch⟩ := htail.munch_of_ne_newline hfirst
    refine ⟨rest', rfl, hmunch, ?_⟩
    rw [hlexeme]
    cases hreading : Lexeme.classify distinguish first (Lexeme.munch first rest).1 with
    | error fault => exact .inl ⟨fault, rfl, rfl⟩
    | ok reading =>
      obtain ⟨hprofile, hwiden⟩ :=
        profile_of_ne_newline (f := f) (ne_newline_of_classify hfirst hreading)
      exact .inr ⟨reading, reading, rfl, rfl, by rw [hprofile, hwiden]⟩

end Reindented

/-! ### Scanning -/

/-- Outcomes that differ in places, in the characters of newlines and in the widths, here mapped. -/
inductive Outcome.Scaled (f : Nat → Nat) : Outcome → Outcome → Prop where
  | entry {entry entry' : Entry} (profile_eq : entry'.profile = entry.profile.widen f) :
      Scaled f (.entry entry) (.entry entry')
  | finished : Scaled f .finished .finished
  | failed {fault : Text.TooManyDigits} : Scaled f (.failed fault) (.failed fault)

namespace Outcome.Scaled

variable {outcome : Outcome}

theorem eq_finished (h : Outcome.finished.Scaled f outcome) : outcome = .finished := by
  cases h
  rfl

theorem eq_failed {fault : Text.TooManyDigits} (h : (Outcome.failed fault).Scaled f outcome) :
    outcome = .failed fault := by
  cases h
  rfl

theorem exists_entry {first : Entry} (h : (Outcome.entry first).Scaled f outcome) :
    ∃ second : Entry, outcome = .entry second ∧ second.profile = first.profile.widen f := by
  cases h with
  | entry profile_eq => exact ⟨_, rfl, profile_eq⟩

end Outcome.Scaled

theorem Lexeme.Reading.profile_entry (reading : Reading) (span : Span) :
    (reading.entry span).profile = reading.profile := by
  rw [Entry.profile, reading_entry]

/-- Scanners over two such texts find the same, wherever they stand. -/
theorem Reindented.next {text text' : List Char} (h : Reindented f text text')
    (distinguish : Bool) (position offset position' offset' : Nat) :
    Outcome.Scaled f (Scanner.next distinguish ⟨text, position, offset⟩).1
        (Scanner.next distinguish ⟨text', position', offset'⟩).1 ∧
      Reindented f (Scanner.next distinguish ⟨text, position, offset⟩).2.rest
        (Scanner.next distinguish ⟨text', position', offset'⟩).2.rest := by
  induction text generalizing text' position offset position' offset' with
  | nil =>
    obtain rfl := List.head?_eq_none_iff.1 h.head?_eq
    rw [Scanner.next_nil, Scanner.next_nil]
    exact ⟨.finished, h⟩
  | cons first rest ih =>
    cases hblank : isBlank first with
    | true =>
      have hfirst : first ≠ '\n' := by
        rintro rfl
        cases hblank
      obtain ⟨rest', rfl, htail⟩ := h.exists_tail hfirst
      rw [Scanner.next_blank hblank, Scanner.next_blank hblank]
      exact ih htail _ _ _ _
    | false =>
      obtain ⟨rest', rfl, htail, ⟨fault, hfault, hfault'⟩ |
        ⟨reading, reading', hreading, hreading', hprofile⟩⟩ := h.classify distinguish
      · rw [Scanner.next_fault hblank hfault, Scanner.next_fault hblank hfault']
        exact ⟨.failed, h⟩
      · rw [Scanner.next_lexeme hblank hreading, Scanner.next_lexeme hblank hreading']
        refine ⟨.entry ?_, htail⟩
        rwa [Reading.profile_entry, Reading.profile_entry]

/-! ### Layout -/

def Phase.map (f : Nat → Nat) : Phase → Phase
  | .seek => .seek
  | .compare width place => .compare (f width) place
  | .close width place => .close (f width) place
  | .flush place => .flush place

namespace Layout

variable {widths widths' : Widths} {phase phase' : Phase} {entry entry' : Entry}

theorem innermost_map (hzero : f 0 = 0) (widths : Widths) :
    Widths.innermost (widths.map f) = f widths.innermost := by
  cases widths with
  | nil => exact hzero.symm
  | cons => rfl

/-- Widths are only compared, so nothing else is due when they are mapped in order. -/
theorem settle_map (hf : StrictMono f) (hzero : f 0 = 0) (widths : Widths) (phase : Phase) :
    settle (widths.map f) (phase.map f) =
      (settle widths phase).map fun due => (due.1, due.2.1.map f, due.2.2.map f) := by
  cases phase with
  | seek => rfl
  | flush place => cases widths <;> rfl
  | compare width place =>
    simp only [settle, Phase.map, innermost_map hzero, hf.lt_iff_lt]
    split_ifs
    · rfl
    · rw [Option.map_some, List.map_tail]
    · rfl
  | close width place =>
    simp only [settle, Phase.map, innermost_map hzero, hf.lt_iff_lt]
    split_ifs
    · rw [Option.map_some, List.map_tail]
    · rfl
    · rfl

theorem widen_settle (h : settle widths phase = some (entry, phase', widths')) :
    entry.profile.widen f = entry.profile := by
  obtain ⟨place, -, ⟨width, -, rfl, -⟩ | ⟨inner, -, rfl, -⟩ | ⟨rfl, -⟩⟩ := settle_cases h
  all_goals rfl

theorem after_eq_map (h : entry'.profile = entry.profile.widen f) :
    after entry' = ((after entry).map f).move entry'.span.stop := by
  rw [after_of_profile entry', after_of_profile entry, h]
  cases entry.profile with
  | error kind text => rfl
  | token kind value => cases kind <;> cases value <;> rfl

end Layout

/-! ### Lockstep -/

inductive Iterator.Scaled (f : Nat → Nat) : Iterator → Iterator → Prop where
  | raw : Scaled f .raw .raw
  | ended : Scaled f .ended .ended
  | layout (phase : Phase) (place : Int) :
      Scaled f (.layout phase) (.layout ((phase.map f).move place))

/-- The one lexer has before it what the other has, indented anew, and its open widths are those of
the other, mapped. -/
structure Lexer.Scaled (f : Nat → Nat) (lexer lexer' : Lexer) : Prop where
  distinguish_eq : lexer'.distinguish = lexer.distinguish
  rest : Reindented f lexer.scanner.rest lexer'.scanner.rest
  widths_eq : lexer'.widths = lexer.widths.map f

structure Pull.Scaled (f : Nat → Nat) (pull pull' : Pull) : Prop where
  outcome : pull.outcome.Scaled f pull'.outcome
  iterator : pull.iterator.Scaled f pull'.iterator
  lexer : pull.lexer.Scaled f pull'.lexer

theorem Iterator.scaled_tokens : tokens.Scaled f tokens :=
  .layout .seek 0

namespace Lexer.Scaled

variable {lexer lexer' : Lexer} {iterator iterator' : Iterator}

theorem next (h : lexer.Scaled f lexer') :
    (lexer.scanner.next lexer.distinguish).1.Scaled f
        (lexer'.scanner.next lexer'.distinguish).1 ∧ lexer.moved.Scaled f lexer'.moved := by
  obtain ⟨houtcome, hrest⟩ := h.rest.next lexer.distinguish lexer.scanner.position
    lexer.scanner.offset lexer'.scanner.position lexer'.scanner.offset
  rw [moved, moved, h.distinguish_eq]
  exact ⟨houtcome, rfl, hrest, h.widths_eq⟩

theorem finish (h : lexer.Scaled f lexer') : lexer.finish.Scaled f lexer'.finish :=
  ⟨.finished, .ended, h⟩

theorem pullRaw (h : lexer.Scaled f lexer') :
    (lexer.pull .raw).Scaled f (lexer'.pull .raw) := by
  obtain ⟨houtcome, hmoved⟩ := h.next
  generalize hnext : (lexer.scanner.next lexer.distinguish).1 = found,
    hnext' : (lexer'.scanner.next lexer'.distinguish).1 = found' at houtcome
  cases houtcome with
  | entry profile_eq =>
    rw [pull_raw_of_entry hnext, pull_raw_of_entry hnext']
    exact ⟨.entry profile_eq, .raw, hmoved⟩
  | finished =>
    rw [pull_raw_of_finished hnext, pull_raw_of_finished hnext']
    exact ⟨.finished, .ended, hmoved⟩
  | failed =>
    rw [pull_raw_of_failed hnext, pull_raw_of_failed hnext']
    exact ⟨.failed, .ended, hmoved⟩

section Ordered

variable (hf : StrictMono f) (hzero : f 0 = 0)
include hf hzero

theorem settle_eq (h : lexer.Scaled f lexer') (phase : Phase) (place : Int) :
    Layout.settle lexer'.widths ((phase.map f).move place) =
      (Layout.settle lexer.widths phase).map fun due =>
        (due.1.move place, (due.2.1.map f).move place, due.2.2.map f) := by
  rw [h.widths_eq, Layout.settle_move, Layout.settle_map hf hzero, Option.map_map]
  rfl

theorem pullDue (h : lexer.Scaled f lexer') {phase phase' : Phase} {entry : Entry}
    {widths : Widths} (place : Int)
    (hsettle : Layout.settle lexer.widths phase = some (entry, phase', widths)) :
    (lexer.pull (.layout phase)).Scaled f (lexer'.pull (.layout ((phase.map f).move place))) := by
  have hsettle' := h.settle_eq hf hzero phase place
  rw [hsettle] at hsettle'
  rw [pull_of_settle hsettle, pull_of_settle hsettle']
  refine ⟨.entry ?_, .layout phase' place, h.distinguish_eq, h.rest, rfl⟩
  rw [Entry.profile_move, Layout.widen_settle hsettle]

theorem pullFlush (h : lexer.Scaled f lexer') (place place' : Int) :
    (lexer.pull (.layout (.flush place))).Scaled f
      (lexer'.pull (.layout (.flush place'))) := by
  have hsettle' : Layout.settle lexer'.widths (.flush place') = _ :=
    h.settle_eq hf hzero (.flush place) place'
  cases hsettle : Layout.settle lexer.widths (.flush place) with
  | some due => exact h.pullDue hf hzero place' hsettle
  | none =>
    rw [hsettle] at hsettle'
    rw [pull_of_flush (by simp [pullDue?, hsettle]), pull_of_flush (by simp [pullDue?, hsettle'])]
    exact h.finish

theorem pullSeek (h : lexer.Scaled f lexer') : lexer.pullSeek.Scaled f lexer'.pullSeek := by
  obtain ⟨houtcome, hmoved⟩ := h.next
  generalize hnext : (lexer.scanner.next lexer.distinguish).1 = found,
    hnext' : (lexer'.scanner.next lexer'.distinguish).1 = found' at houtcome
  cases houtcome with
  | entry profile_eq =>
    rw [pullSeek_of_entry hnext, pullSeek_of_entry hnext', Layout.after_eq_map profile_eq]
    exact ⟨.entry profile_eq, .layout _ _, hmoved⟩
  | finished =>
    rw [pullSeek_of_finished hnext, pullSeek_of_finished hnext']
    exact hmoved.pullFlush hf hzero _ _
  | failed =>
    rw [pullSeek_of_failed hnext, pullSeek_of_failed hnext']
    exact ⟨.failed, .ended, hmoved⟩

/-- **One pull in lockstep.** -/
theorem pull (h : lexer.Scaled f lexer') (hiterator : iterator.Scaled f iterator') :
    (lexer.pull iterator).Scaled f (lexer'.pull iterator') := by
  cases hiterator with
  | raw => exact h.pullRaw
  | ended => exact h.finish
  | layout phase place =>
    cases hsettle : Layout.settle lexer.widths phase with
    | some due => exact h.pullDue hf hzero place hsettle
    | none =>
      by_cases hflush : ∃ other, phase = .flush other
      · obtain ⟨other, rfl⟩ := hflush
        exact h.pullFlush hf hzero other place
      · have hflush' : ¬∃ other, (phase.map f).move place = .flush other := by
          cases phase <;> simp_all [Phase.map, Phase.move]
        have hsettle' := h.settle_eq hf hzero phase place
        rw [hsettle] at hsettle'
        rw [pull_of_settle_none hsettle hflush, pull_of_settle_none hsettle' hflush',
          pull_tokens, pull_tokens]
        exact h.pullSeek hf hzero

end Ordered

end Lexer.Scaled

/-! ### Runs and moves -/

/-- A reading without its characters if it is a newline. -/
def Lexeme.Reading.bare : Reading → Reading
  | .token .newline _ => .token .newline .nothing
  | reading => reading

/-- An entry without its place and, if it is a newline, without its value. -/
def Entry.outline (entry : Entry) : Reading :=
  entry.reading.bare

theorem Lexeme.Reading.bare_profile (reading : Reading) : reading.profile.bare = reading.bare := by
  cases reading with
  | error kind text => rfl
  | token kind value => cases kind <;> rfl

theorem Lexeme.Reading.bare_widen (f : Nat → Nat) (reading : Reading) :
    (reading.widen f).bare = reading.bare := by
  cases reading with
  | error kind text => rfl
  | token kind value => cases kind <;> cases value <;> rfl

theorem Entry.outline_eq {entry entry' : Entry} (h : entry'.profile = entry.profile.widen f) :
    entry'.outline = entry.outline := by
  have hbare := congrArg Reading.bare h
  rwa [Reading.bare_widen, Entry.profile, Entry.profile, Reading.bare_profile,
    Reading.bare_profile] at hbare

theorem Outcome.Scaled.outline_eq {outcome outcome' : Outcome} (h : outcome.Scaled f outcome') :
    outcome'.yielded.map Entry.outline = outcome.yielded.map Entry.outline := by
  cases h with
  | entry profile_eq => exact congrArg (fun outline => [outline]) (Entry.outline_eq profile_eq)
  | finished => rfl
  | failed => rfl

section Ordered

variable (hf : StrictMono f) (hzero : f 0 = 0)
include hf hzero

/-- Runs in lockstep yield the same and come to the same end. -/
theorem Lexer.Scaled.run {lexer lexer' : Lexer} {iterator iterator' : Iterator}
    (h : lexer.Scaled f lexer') (hiterator : iterator.Scaled f iterator') :
    (lexer'.run false iterator').entries.map Entry.outline =
        (lexer.run false iterator).entries.map Entry.outline ∧
      (lexer'.run false iterator').ending = (lexer.run false iterator).ending := by
  induction lexer, iterator using pull_induction generalizing lexer' iterator' with
  | finished lexer iterator houtcome =>
    have hpull := (h.pull hf hzero hiterator).outcome
    rw [houtcome] at hpull
    rw [run_of_finished houtcome, run_of_finished hpull.eq_finished]
    exact ⟨rfl, rfl⟩
  | failed lexer iterator fault houtcome =>
    have hpull := (h.pull hf hzero hiterator).outcome
    rw [houtcome] at hpull
    rw [run_of_failed houtcome, run_of_failed hpull.eq_failed]
    exact ⟨rfl, rfl⟩
  | entry lexer iterator entry houtcome ih =>
    obtain ⟨hpull, hnext, hlexer⟩ := h.pull hf hzero hiterator
    rw [houtcome] at hpull
    obtain ⟨entry', houtcome', hprofile⟩ := hpull.exists_entry
    obtain ⟨hentries, hending⟩ := ih hlexer hnext
    rw [run_of_entry houtcome (.inl rfl), run_of_entry houtcome' (.inl rfl)]
    exact ⟨congrArg₂ List.cons (Entry.outline_eq hprofile) hentries, hending⟩

end Ordered

section Related

variable {α β : Type} {R : α → β → Prop} {first : List α} {second : List β}

theorem rel_getElem? (h : List.Forall₂ R first second) (n : Nat) :
    Option.Rel R first[n]? second[n]? := by
  induction h generalizing n with
  | nil => exact .none
  | cons hhead _ ih =>
    cases n with
    | zero => exact .some hhead
    | succ n => exact ih n

theorem forall₂_set (h : List.Forall₂ R first second) {a : α} {b : β} (hnew : R a b) (n : Nat) :
    List.Forall₂ R (first.set n a) (second.set n b) := by
  induction h generalizing n with
  | nil => exact .nil
  | cons hhead htail ih =>
    cases n with
    | zero => exact .cons hnew htail
    | succ n => exact .cons hhead (ih n)

end Related

/-- Two lexers in lockstep, with the iterators that were made over them. -/
structure Sharing.Scaled (f : Nat → Nat) (sharing sharing' : Sharing) : Prop where
  lexer : sharing.lexer.Scaled f sharing'.lexer
  iterators : List.Forall₂ (Iterator.Scaled f) sharing.iterators sharing'.iterators
  outline_eq : sharing'.yielded.map Entry.outline = sharing.yielded.map Entry.outline

namespace Sharing.Scaled

variable {sharing sharing' : Sharing}

theorem make (h : sharing.Scaled f sharing') {iterator : Iterator}
    (hiterator : iterator.Scaled f iterator) :
    Sharing.Scaled f { sharing with iterators := sharing.iterators ++ [iterator] }
      { sharing' with iterators := sharing'.iterators ++ [iterator] } :=
  ⟨h.lexer, List.rel_append h.iterators (.cons hiterator .nil), h.outline_eq⟩

section Ordered

variable (hf : StrictMono f) (hzero : f 0 = 0)
include hf hzero

theorem step (h : sharing.Scaled f sharing') (move : Move) :
    (sharing.step move).Scaled f (sharing'.step move) := by
  cases move with
  | tokens => exact h.make Iterator.scaled_tokens
  | raw => exact h.make .raw
  | pull number =>
    have hiterators := rel_getElem? h.iterators number
    generalize hiterator : sharing.iterators[number]? = found,
      hiterator' : sharing'.iterators[number]? = found' at hiterators
    cases hiterators with
    | none =>
      rw [Sharing.step, Sharing.step, hiterator, hiterator']
      exact h
    | some hscaled =>
      obtain ⟨houtcome, hnext, hlexer⟩ := h.lexer.pull hf hzero hscaled
      rw [step_pull hiterator, step_pull hiterator']
      refine ⟨hlexer, forall₂_set h.iterators hnext number, ?_⟩
      rw [Sharing.pull, Sharing.pull, List.map_append, List.map_append, h.outline_eq,
        houtcome.outline_eq]

theorem after (h : sharing.Scaled f sharing') (moves : List Move) :
    (sharing.after moves).Scaled f (sharing'.after moves) := by
  induction moves generalizing sharing sharing' with
  | nil => exact h
  | cons move moves ih => exact ih (h.step hf hzero move)

end Ordered

end Sharing.Scaled

/-! ### Sources -/

theorem Lexer.scaled_ofSettings {source source' : String}
    (h : Reindented f source.toList source'.toList) (settings : Settings) (file : Option String) :
    (ofSettings settings source file).Scaled f (ofSettings settings source' file) :=
  ⟨rfl, h, rfl⟩

theorem Widths.levels_map (hzero : f 0 = 0) (widths : Widths) :
    levels (widths.map f) = widths.levels.map f := by
  rw [levels, levels, List.map_cons, hzero, List.map_reverse]

/-- **Only the order of the widths matters.** Let the lines of a source be indented anew, by widths
in the same order. Then the permissive stream stays the same, but for its places and the characters
of its newlines. Whatever iterators are made over the two sources and whatever is pulled from them
in whatever order, both yield the same at every pull, and behind it the widths that are open in the
second are those that are open in the first, mapped. -/
theorem reindentation {settings : Settings} {source source' : String} {file : Option String}
    {entries : List Entry} (hpermissive : settings.isStrict = false) (hf : StrictMono f)
    (hzero : f 0 = 0) (h : Reindented f source.toList source'.toList)
    (hlex : lex settings source file = .ok entries) :
    (∃ entries', lex settings source' file = .ok entries' ∧
      entries'.map Entry.outline = entries.map Entry.outline) ∧
    ∀ moves,
      let sharing := Sharing.after { lexer := Lexer.ofSettings settings source file } moves
      let sharing' := Sharing.after { lexer := Lexer.ofSettings settings source' file } moves
      sharing'.yielded.map Entry.outline = sharing.yielded.map Entry.outline ∧
        sharing'.lexer.widths.levels = sharing.lexer.widths.levels.map f := by
  constructor
  · have hrun (source : String) :
        lexRun settings source = (Lexer.ofSettings settings source).run false .tokens := by
      rw [lexRun, hpermissive]
    obtain ⟨houtline, hending⟩ := (Lexer.scaled_ofSettings h settings none).run hf hzero
      Iterator.scaled_tokens
    rw [lex, hrun, Run.result_eq_ok_iff] at hlex
    refine ⟨_, ?_, houtline.trans (congrArg _ hlex.2)⟩
    rw [lex, hrun, Run.result_eq_ok_iff]
    exact ⟨hending.trans hlex.1, rfl⟩
  · intro moves sharing sharing'
    have hscaled : Sharing.Scaled f { lexer := Lexer.ofSettings settings source file }
        { lexer := Lexer.ofSettings settings source' file } :=
      ⟨Lexer.scaled_ofSettings h settings file, .nil, rfl⟩
    obtain ⟨hlexer, -, houtline⟩ := hscaled.after hf hzero moves
    exact ⟨houtline, (congrArg Widths.levels hlexer.widths_eq).trans (Widths.levels_map hzero _)⟩

/-- A block that is opened, and behind a blank line a width that fits none, with other blanks and
three of them for each. -/
theorem reindentation_tabs :
    let f : Nat → Nat := fun width => 3 * width
    let source := "f #\n  g\n\n h"
    let source' := "f #\n\t \t   g\n\n \t h"
    let outlines : List Reading :=
      [.token .identifier (.text "f"), .error .unrecognizedToken "#", .token .newline .nothing,
        .token .indentation .nothing, .token .identifier (.text "g"), .token .newline .nothing,
        .token .deindentation .nothing, .error .inconsistentDedent "",
        .token .identifier (.text "h")]
    let moves : List Move := [.tokens, .pull 0, .pull 0, .pull 0, .pull 0]
    ({} : Settings).isStrict = false ∧ StrictMono f ∧ f 0 = 0 ∧
      Reindented f source.toList source'.toList ∧
      (∃ entries', lex {} source' = .ok entries' ∧ entries'.map Entry.outline = outlines) ∧
      (Sharing.after { lexer := Lexer.ofSettings {} source' } moves).lexer.widths.levels =
        [0, 6] := by
  intro f source source' outlines moves
  have hf : StrictMono f := fun first second h => Nat.mul_lt_mul_of_pos_left h (by decide)
  have hlast : Reindented f ['h'] ['h'] := .char (by simp) .nil
  have hback : Reindented f ['g', '\n', '\n', ' ', 'h'] ['g', '\n', '\n', ' ', '\t', ' ', 'h'] :=
    .char (by simp) (@Reindented.run f ['\n'] [' '] [' ', '\t', ' '] _ _ (by simp [isLayout])
      (by simp [isBlank]) (by simp [isLayout, isBlank]) (by simp [isBlank]) rfl hlast)
  have hopened : Reindented f
      ('\n' :: [' ', ' '] ++ ['g', '\n', '\n', ' ', 'h'])
      ('\n' :: ['\t', ' ', '\t', ' ', ' ', ' '] ++ ['g', '\n', '\n', ' ', '\t', ' ', 'h']) :=
    @Reindented.run f [] [' ', ' '] ['\t', ' ', '\t', ' ', ' ', ' '] _ _ (by simp)
      (by simp [isBlank]) (by simp [isLayout, isBlank]) (by simp [isBlank]) rfl hback
  have hreindented : Reindented f source.toList source'.toList := by
    rw [show source.toList = ['f', ' ', '#', '\n', ' ', ' ', 'g', '\n', '\n', ' ', 'h'] by cbv,
      show source'.toList = ['f', ' ', '#', '\n', '\t', ' ', '\t', ' ', ' ', ' ', 'g', '\n', '\n',
        ' ', '\t', ' ', 'h'] by cbv]
    exact .char (by simp) (.char (by simp) (.char (by simp) hopened))
  obtain ⟨entries, hlex, houtline⟩ :
      ∃ entries, lex {} source = .ok entries ∧ entries.map Entry.outline = outlines :=
    ⟨_, by cbv, rfl⟩
  have hlevels : (Sharing.after { lexer := Lexer.ofSettings {} source } moves).lexer.widths.levels =
      [0, 2] := by cbv
  obtain ⟨⟨entries', hlex', houtline'⟩, hmoves⟩ := reindentation rfl hf rfl hreindented hlex
  refine ⟨rfl, hf, rfl, hreindented, ⟨entries', hlex', houtline'.trans houtline⟩, ?_⟩
  rw [(hmoves moves).2, hlevels]
  rfl

end Offside
