import Offside.Lexing
import Offside.Proofs.Pulling
import Offside.Proofs.Spelling

/-!
# Places

A scanner stays in its text and never goes back, and all spans lie in the source: `within_of_lex`
and `within_of_scan`. The invariant of a pull is that the places that are put off for the layout lie
in the source, too.
-/

namespace Offside

/-! ### Scanners -/

namespace Scanner

def Inside (text : List Char) (scanner : Scanner) : Prop :=
  ∃ front, front ++ scanner.rest = text ∧ scanner.position = front.length ∧
    scanner.offset = Utf8.size front

variable {distinguish : Bool} {text taken rest : List Char} {scanner : Scanner}

theorem inside_ofSource (source : String) : (ofSource source).Inside source.toList :=
  ⟨[], rfl, rfl, rfl⟩

theorem Inside.pass (h : scanner.Inside text) (hrest : taken ++ rest = scanner.rest) :
    (scanner.pass taken rest).Inside text := by
  obtain ⟨front, htext, hposition, hoffset⟩ := h
  refine ⟨front ++ taken, ?_, ?_, ?_⟩
  · rw [Scanner.pass, List.append_assoc, hrest, htext]
  · rw [Scanner.pass, hposition, List.length_append]
  · rw [Scanner.pass, hoffset, Utf8.size_append]

theorem Inside.skipBlanks (h : scanner.Inside text) : scanner.skipBlanks.Inside text :=
  h.pass List.takeWhile_append_dropWhile

theorem Inside.position_le (h : scanner.Inside text) : scanner.position ≤ text.length := by
  obtain ⟨front, htext, hposition, -⟩ := h
  rw [hposition, ← htext, List.length_append]
  exact Nat.le_add_right _ _

theorem Inside.offset_le (h : scanner.Inside text) : scanner.offset ≤ Utf8.size text := by
  obtain ⟨front, htext, -, hoffset⟩ := h
  rw [hoffset, ← htext, Utf8.size_append]
  exact Nat.le_add_right _ _

theorem next_cases (distinguish : Bool) (scanner : Scanner) :
    (scanner.skipBlanks.rest = [] ∧
        scanner.next distinguish = (.finished, scanner.skipBlanks)) ∨
      ∃ first rest, scanner.skipBlanks.rest = first :: rest ∧
        ((∃ fault, Lexeme.classify distinguish first (Lexeme.munch first rest).1 = .error fault ∧
            scanner.next distinguish = (.failed fault, scanner.skipBlanks)) ∨
          ∃ reading, Lexeme.classify distinguish first (Lexeme.munch first rest).1 = .ok reading ∧
            scanner.next distinguish =
              (.entry (reading.entry ⟨scanner.skipBlanks.offset,
                  (scanner.skipBlanks.offset + Utf8.size (Lexeme.munch first rest).1 : Nat)⟩),
                scanner.skipBlanks.pass (Lexeme.munch first rest).1
                  (Lexeme.munch first rest).2)) := by
  cases hrest : scanner.skipBlanks.rest with
  | nil => exact .inl ⟨rfl, by simp [next, hrest]⟩
  | cons first rest =>
    refine .inr ⟨first, rest, rfl, ?_⟩
    cases hreading : Lexeme.classify distinguish first (Lexeme.munch first rest).1 with
    | error fault => exact .inl ⟨fault, rfl, by simp [next, hrest, hreading]⟩
    | ok reading => exact .inr ⟨reading, rfl, by simp [next, hrest, hreading, pass]⟩

theorem next_of_entry {entry : Entry} (h : (scanner.next distinguish).1 = .entry entry) :
    ∃ first rest reading, scanner.skipBlanks.rest = first :: rest ∧
      Lexeme.classify distinguish first (Lexeme.munch first rest).1 = .ok reading ∧
      entry = reading.entry ⟨scanner.skipBlanks.offset,
        (scanner.skipBlanks.offset + Utf8.size (Lexeme.munch first rest).1 : Nat)⟩ ∧
      (scanner.next distinguish).2 =
        scanner.skipBlanks.pass (Lexeme.munch first rest).1 (Lexeme.munch first rest).2 := by
  obtain ⟨-, hnext⟩ | ⟨first, rest, hrest, ⟨fault, -, hnext⟩ | ⟨reading, hreading, hnext⟩⟩ :=
    next_cases distinguish scanner
  · rw [hnext] at h
    cases h
  · rw [hnext] at h
    cases h
  · rw [hnext] at h ⊢
    exact ⟨first, rest, reading, hrest, hreading, (Outcome.entry.inj h).symm, rfl⟩

theorem Inside.next (h : scanner.Inside text) (distinguish : Bool) :
    (scanner.next distinguish).2.Inside text := by
  obtain ⟨-, hnext⟩ | ⟨first, rest, hrest, ⟨fault, -, hnext⟩ | ⟨reading, -, hnext⟩⟩ :=
    next_cases distinguish scanner
  · rw [hnext]
    exact h.skipBlanks
  · rw [hnext]
    exact h.skipBlanks
  · rw [hnext]
    apply h.skipBlanks.pass
    rw [hrest, Lexeme.munch_append]

theorem position_le_pass : scanner.position ≤ (scanner.pass taken rest).position :=
  Nat.le_add_right _ _

theorem position_le_next (distinguish : Bool) (scanner : Scanner) :
    scanner.position ≤ (scanner.next distinguish).2.position := by
  have hskip : scanner.position ≤ scanner.skipBlanks.position := position_le_pass
  obtain ⟨-, hnext⟩ | ⟨first, rest, -, ⟨fault, -, hnext⟩ | ⟨reading, -, hnext⟩⟩ :=
    next_cases distinguish scanner
  · rwa [hnext]
  · rwa [hnext]
  · rw [hnext]
    exact Nat.le_trans hskip position_le_pass

end Scanner

/-! ### Entries -/

namespace Entry

/-- The span lies in a source of some size, and a number is one that tokens carry. -/
structure Within (size : Nat) (entry : Entry) : Prop where
  start_nonneg : 0 ≤ entry.span.start
  start_le_stop : entry.span.start ≤ entry.span.stop
  stop_le : entry.span.stop ≤ size
  number_le : ∀ n ∈ entry.number?, 0 ≤ n ∧ n ≤ Lexeme.maxInteger

end Entry

theorem Entry.Spelled.number_le {lexeme : List Char} {entry : Entry} (h : entry.Spelled lexeme) :
    ∀ n ∈ entry.number?, 0 ≤ n ∧ n ≤ Lexeme.maxInteger := by
  intro n hn
  cases entry with
  | error error => cases hn
  | token token =>
    obtain ⟨kind, span, value⟩ := token
    cases kind with
    | identifier =>
      obtain rfl : value = _ := h
      cases hn
    | newline =>
      obtain rfl : value = _ := h
      cases hn
    | integer =>
      obtain ⟨-, rfl, hle⟩ := h
      obtain rfl := Option.some.inj hn
      exact ⟨Int.natCast_nonneg _, Int.ofNat_le.mpr hle⟩
    | _ =>
      obtain ⟨-, rfl⟩ := h
      cases hn

theorem Lexeme.span_entry (reading : Reading) (span : Span) :
    (reading.entry span).span = span := by
  cases reading <;> rfl

namespace Scanner

variable {distinguish : Bool} {text : List Char} {scanner : Scanner} {entry : Entry}

theorem spelled_of_next (hnext : (scanner.next distinguish).1 = .entry entry) :
    ∃ lexeme, lexeme ≠ [] ∧ entry.Spelled lexeme ∧
      scanner.skipBlanks.rest = lexeme ++ (scanner.next distinguish).2.rest ∧
      entry.span = ⟨scanner.skipBlanks.offset, (scanner.next distinguish).2.offset⟩ ∧
      (scanner.next distinguish).2.offset = scanner.skipBlanks.offset + Utf8.size lexeme := by
  obtain ⟨first, rest, reading, hrest, hreading, rfl, hafter⟩ := next_of_entry hnext
  rw [hafter]
  refine ⟨_, Lexeme.munch_ne_nil first rest, Lexeme.spelled_of_classify hreading _, ?_, ?_, rfl⟩
  · rw [hrest]
    exact (Lexeme.munch_append first rest).symm
  · exact Lexeme.span_entry reading _

theorem Inside.within (h : scanner.Inside text)
    (hnext : (scanner.next distinguish).1 = .entry entry) : entry.Within (Utf8.size text) := by
  have hstop := (h.next distinguish).offset_le
  obtain ⟨lexeme, -, hspelled, -, hspan, hoffset⟩ := spelled_of_next hnext
  refine ⟨?_, ?_, ?_, hspelled.number_le⟩
  · rw [hspan]
    exact Int.natCast_nonneg _
  · rw [hspan, hoffset]
    exact Int.ofNat_le.mpr (Nat.le_add_right _ _)
  · rw [hspan]
    exact Int.ofNat_le.mpr hstop

end Scanner

/-! ### Lexers -/

/-- The place that a phase holds for the entries that are due in it. -/
def Phase.place? : Phase → Option Int
  | .seek => none
  | .compare _ place => some place
  | .close _ place => some place
  | .flush place => some place

def Iterator.Within (size : Nat) : Iterator → Prop
  | .layout phase => ∀ place ∈ phase.place?, 0 ≤ place ∧ place ≤ size
  | _ => True

namespace Layout

theorem within_after {size : Nat} {entry : Entry} (h : entry.Within size) :
    Iterator.Within size (.layout (after entry)) := by
  intro place hplace
  unfold after at hplace
  split at hplace
  · obtain rfl := Option.some.inj hplace
    exact ⟨le_trans h.start_nonneg h.start_le_stop, h.stop_le⟩
  · cases hplace

/-- What settling can come to: it opens a block, closes one or reports a width that fits none. -/
theorem settle_cases {widths widths' : Widths} {phase phase' : Phase} {entry : Entry}
    (h : settle widths phase = some (entry, phase', widths')) :
    ∃ place ∈ phase.place?,
      (∃ width, widths.innermost < width ∧ entry = indentation place ∧ phase' = .seek ∧
        widths' = width :: widths) ∨
      (∃ inner, widths = inner :: widths' ∧ entry = deindentation place ∧
        phase'.place? = some place) ∨
      entry = inconsistentDedent place ∧ phase' = .seek ∧ widths' = widths := by
  cases phase with
  | seek => simp [settle] at h
  | compare width place =>
    rw [settle] at h
    refine ⟨place, rfl, ?_⟩
    split_ifs at h with hopen hclose
    · cases h
      exact .inl ⟨width, hopen, rfl, rfl, rfl⟩
    · cases h
      obtain ⟨inner, hwidths⟩ := Widths.eq_cons_of_lt_innermost hclose
      exact .inr (.inl ⟨inner, hwidths, rfl, rfl⟩)
  | close width place =>
    rw [settle] at h
    refine ⟨place, rfl, ?_⟩
    split_ifs at h with hclose hreport
    · cases h
      obtain ⟨inner, hwidths⟩ := Widths.eq_cons_of_lt_innermost hclose
      exact .inr (.inl ⟨inner, hwidths, rfl, rfl⟩)
    · cases h
      exact .inr (.inr ⟨rfl, rfl, rfl⟩)
  | flush place =>
    rw [settle] at h
    refine ⟨place, rfl, ?_⟩
    cases widths with
    | nil => cases h
    | cons inner widths =>
      cases h
      exact .inr (.inl ⟨inner, rfl, rfl, rfl⟩)

theorem within_settle {size : Nat} {widths widths' : Widths} {phase phase' : Phase} {entry : Entry}
    (hphase : Iterator.Within size (.layout phase))
    (h : settle widths phase = some (entry, phase', widths')) :
    entry.Within size ∧ Iterator.Within size (.layout phase') := by
  obtain ⟨place, hplace, ⟨width, -, rfl, rfl, -⟩ | ⟨inner, -, rfl, hsame⟩ | ⟨rfl, rfl, -⟩⟩ :=
    settle_cases h
  all_goals obtain ⟨hlow, hhigh⟩ := hphase place hplace
  · exact ⟨⟨hlow, le_rfl, hhigh, nofun⟩, nofun⟩
  · refine ⟨⟨hlow, le_rfl, hhigh, nofun⟩, fun place' hplace' => ?_⟩
    obtain rfl : place = place' := Option.some.inj (hsame.symm.trans hplace')
    exact ⟨hlow, hhigh⟩
  · exact ⟨⟨hlow, le_rfl, hhigh, nofun⟩, nofun⟩

end Layout

namespace Lexer

variable {lexer lexer' : Lexer} {iterator iterator' : Iterator} {outcome : Outcome}

theorem Pulls.source_eq (h : lexer.Pulls iterator outcome iterator' lexer') :
    lexer'.source = lexer.source := by
  induction h with
  | seekEnd _ _ _ _ ih => exact ih
  | _ => rfl

theorem Pulls.inside (h : lexer.Pulls iterator outcome iterator' lexer') {text : List Char}
    (hinside : lexer.scanner.Inside text) : lexer'.scanner.Inside text := by
  induction h with
  | ended => exact hinside
  | due => exact hinside
  | closed => exact hinside
  | seekEnd _ _ _ _ ih => exact ih (hinside.next _)
  | _ => exact hinside.next _

theorem Pulls.position_le (h : lexer.Pulls iterator outcome iterator' lexer') :
    lexer.scanner.position ≤ lexer'.scanner.position := by
  induction h with
  | ended => exact le_rfl
  | due => exact le_rfl
  | closed => exact le_rfl
  | seekEnd _ _ _ _ ih => exact le_trans (Scanner.position_le_next _ _) ih
  | _ => exact Scanner.position_le_next _ _

structure Placed (lexer : Lexer) (iterator : Iterator) : Prop where
  inside : lexer.scanner.Inside lexer.source.toList
  within : iterator.Within (Utf8.size lexer.source.toList)

theorem placed_ofSettings (settings : Settings) (source : String) (file : Option String)
    (hiterator : iterator = .raw ∨ iterator = .tokens) :
    (ofSettings settings source file).Placed iterator := by
  refine ⟨Scanner.inside_ofSource source, ?_⟩
  obtain rfl | rfl := hiterator
  · trivial
  · exact nofun

theorem Pulls.within (h : lexer.Pulls iterator outcome iterator' lexer')
    (hplaced : lexer.Placed iterator) :
    iterator'.Within (Utf8.size lexer.source.toList) ∧
      ∀ entry ∈ outcome.yielded, entry.Within (Utf8.size lexer.source.toList) := by
  induction h with
  | raw hnext => exact ⟨trivial, List.forall_mem_singleton.2 (hplaced.inside.within hnext)⟩
  | due hsettle =>
    obtain ⟨hentry, hphase⟩ := Layout.within_settle hplaced.within hsettle
    exact ⟨hphase, List.forall_mem_singleton.2 hentry⟩
  | seek _ _ hnext =>
    have hentry := hplaced.inside.within hnext
    exact ⟨Layout.within_after hentry, List.forall_mem_singleton.2 hentry⟩
  | seekEnd _ _ _ _ ih =>
    refine ih ⟨hplaced.inside.next _, fun place hplace => ?_⟩
    obtain rfl := Option.some.inj hplace
    exact ⟨Int.natCast_nonneg _, le_rfl⟩
  | _ => exact ⟨trivial, List.forall_mem_nil _⟩

theorem within_run (hplaced : lexer.Placed iterator) (strict : Bool) :
    ∀ entry ∈ (lexer.run strict iterator).entries,
      entry.Within (Utf8.size lexer.source.toList) := by
  have hpull {other : Lexer} {iterator : Iterator} {entry : Entry}
      (hother : other.source = lexer.source ∧ other.Placed iterator)
      (houtcome : (other.pull iterator).outcome = .entry entry) :
      entry.Within (Utf8.size lexer.source.toList) ∧
        ((other.pull iterator).lexer.source = lexer.source ∧
          (other.pull iterator).lexer.Placed (other.pull iterator).iterator) := by
    obtain ⟨hsource, hplaced⟩ := hother
    have hpulls := other.pulls_pull iterator
    have hsame := hpulls.source_eq
    obtain ⟨hnext, hentry⟩ := hpulls.within hplaced
    have hinside := hpulls.inside hplaced.inside
    rw [houtcome, hsource] at hentry
    rw [← hsame] at hnext hinside
    exact ⟨hentry entry List.mem_cons_self, hsame.trans hsource, hinside, hnext⟩
  exact forall_mem_run hpull ⟨rfl, hplaced⟩

end Lexer

/-! ### Streams -/

theorem Run.result_eq_ok_iff {source : String} {file : Option String} {run : Run}
    {entries : List Entry} :
    run.result source file = .ok entries ↔ run.ending = .finished ∧ run.entries = entries := by
  rw [Run.result]
  cases run.ending <;> simp

theorem Run.entries_of_result {source : String} {file : Option String} {run : Run}
    {entries : List Entry} (h : run.result source file = .ok entries) : run.entries = entries :=
  (Run.result_eq_ok_iff.1 h).2

theorem within_of_lex {settings : Settings} {source : String} {file : Option String}
    {entries : List Entry} (h : lex settings source file = .ok entries) :
    ∀ entry ∈ entries, entry.Within (Utf8.size source.toList) := by
  rw [← Run.entries_of_result h]
  exact Lexer.within_run (Lexer.placed_ofSettings settings source none (.inr rfl)) _

theorem within_of_scan {settings : Settings} {source : String} {entries : List Entry}
    (h : scan settings source = .ok entries) :
    ∀ entry ∈ entries, entry.Within (Utf8.size source.toList) := by
  rw [← Run.entries_of_result h]
  exact Lexer.within_run (Lexer.placed_ofSettings settings source none (.inl rfl)) _

end Offside
