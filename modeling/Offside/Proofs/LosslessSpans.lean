import Mathlib
import Offside.Proofs.RawEntries
import Offside.Proofs.Utf8RoundTrip

/-!
# Lossless spans

The raw entries of a source cut it up without loss: what no span covers is blank, and a span slices
the lexeme that its entry is spelled by. `Tiled` says so of a text and a list of entries, and
`tiled_stream` that it holds of the stream of a scanner. Layout puts its entries between the raw
ones at places where nothing is cut: `Lexer.sorted_run`. `lossless_spans` puts the two together.
-/

namespace Offside

/-! ### Tiled texts -/

/-- A text that stands behind `offset` bytes is cut into blanks and the lexemes of entries. -/
inductive Tiled : Nat → List Char → List Entry → Prop where
  | nil {offset : Nat} : Tiled offset [] []
  | blank {offset : Nat} {c : Char} {rest : List Char} {entries : List Entry}
      (blank : isBlank c = true) (tail : Tiled (offset + c.utf8Size) rest entries) :
      Tiled offset (c :: rest) entries
  | lexeme {offset : Nat} {lexeme rest : List Char} {entry : Entry} {entries : List Entry}
      (ne_nil : lexeme ≠ []) (span : entry.span = ⟨offset, ↑(offset + Utf8.size lexeme)⟩)
      (spelled : entry.Spelled lexeme) (tail : Tiled (offset + Utf8.size lexeme) rest entries) :
      Tiled offset (lexeme ++ rest) (entry :: entries)

namespace Tiled

variable {offset : Nat} {text : List Char} {entries : List Entry}

theorem exists_lexeme (h : Tiled offset text entries) {entry : Entry} (hentry : entry ∈ entries) :
    ∃ before lexeme after, text = before ++ lexeme ++ after ∧ lexeme ≠ [] ∧
      entry.span = ⟨↑(offset + Utf8.size before),
        ↑(offset + Utf8.size before + Utf8.size lexeme)⟩ ∧
      entry.Spelled lexeme := by
  induction h with
  | nil => cases hentry
  | @blank offset c rest entries _ _ ih =>
    obtain ⟨before, lexeme, after, rfl, hne, hspan, hspelled⟩ := ih hentry
    refine ⟨c :: before, lexeme, after, rfl, hne, ?_, hspelled⟩
    rw [hspan, Utf8.size_cons, Nat.add_assoc offset]
  | @lexeme offset first rest found entries hne hspan hspelled _ ih =>
    obtain rfl | hrest := List.mem_cons.1 hentry
    · exact ⟨[], first, rest, rfl, hne, hspan, hspelled⟩
    · obtain ⟨before, lexeme, after, rfl, hne, hspan, hspelled⟩ := ih hrest
      refine ⟨first ++ before, lexeme, after, by simp, hne, ?_, hspelled⟩
      rw [hspan, Utf8.size_append, Nat.add_assoc offset]

theorem exists_bounds (h : Tiled 0 text entries) {entry : Entry} (hentry : entry ∈ entries) :
    ∃ i j, i < j ∧ j ≤ text.length ∧
      entry.span = ⟨Utf8.size (text.take i), Utf8.size (text.take j)⟩ ∧
      entry.Spelled ((text.take j).drop i) := by
  obtain ⟨before, lexeme, after, rfl, hne, hspan, hspelled⟩ := h.exists_lexeme hentry
  have hbefore : (before ++ lexeme ++ after).take before.length = before := by
    rw [List.append_assoc, List.take_left]
  have hlexeme : (before ++ lexeme ++ after).take (before ++ lexeme).length = before ++ lexeme :=
    List.take_left
  refine ⟨before.length, (before ++ lexeme).length, ?_, ?_, ?_, ?_⟩
  · rw [List.length_append]
    exact Nat.lt_add_of_pos_right (List.length_pos_iff.2 hne)
  · exact (List.prefix_append _ _).length_le
  · rw [hbefore, hlexeme, hspan, Utf8.size_append, Nat.zero_add]
  · rw [hlexeme, List.drop_left]
    exact hspelled

theorem covers (h : Tiled offset text entries) {before after : List Char} {c : Char}
    (htext : text = before ++ c :: after) :
    isBlank c = true ∨ ∃ entry ∈ entries,
      entry.span.start ≤ ↑(offset + Utf8.size before) ∧
        ↑(offset + Utf8.size before + c.utf8Size) ≤ entry.span.stop := by
  induction h generalizing before with
  | nil => simp at htext
  | @blank offset d rest entries hblank _ ih =>
    cases before with
    | nil =>
      obtain ⟨rfl, -⟩ := List.cons.inj htext
      exact .inl hblank
    | cons first before =>
      obtain ⟨rfl, hrest⟩ := List.cons.inj htext
      rw [Utf8.size_cons, ← Nat.add_assoc offset]
      exact ih hrest
  | @lexeme offset first rest found entries _ hspan _ _ ih =>
    have hlater (front : List Char) (hfront : before = first ++ front)
        (hrest : rest = front ++ c :: after) :
        isBlank c = true ∨ ∃ entry ∈ found :: entries,
          entry.span.start ≤ ↑(offset + Utf8.size before) ∧
            ↑(offset + Utf8.size before + c.utf8Size) ≤ entry.span.stop := by
      rw [hfront, Utf8.size_append, ← Nat.add_assoc offset]
      refine (ih hrest).imp_right ?_
      rintro ⟨entry, hentry, hcovers⟩
      exact ⟨entry, List.mem_cons_of_mem _ hentry, hcovers⟩
    obtain ⟨front, hfront, hrest⟩ | ⟨back, hback, hrest⟩ := List.append_eq_append_iff.1 htext
    · exact hlater front hfront hrest
    · cases back with
      | nil => exact hlater [] (by simpa using hback.symm) (by simpa using hrest.symm)
      | cons d back =>
        obtain ⟨rfl, -⟩ := List.cons.inj hrest
        refine .inr ⟨found, List.mem_cons_self, ?_⟩
        rw [hspan, hback, Utf8.size_append, Utf8.size_cons]
        constructor <;> dsimp only <;> omega

theorem blank_or_covered (h : Tiled 0 text entries) {i : Nat} {c : Char}
    (hc : text[i]? = some c) :
    isBlank c = true ∨ ∃ entry ∈ entries, entry.span.start ≤ Utf8.size (text.take i) ∧
      Utf8.size (text.take (i + 1)) ≤ entry.span.stop := by
  obtain ⟨hi, rfl⟩ := List.getElem?_eq_some_iff.1 hc
  have htext : text = text.take i ++ text[i] :: text.drop (i + 1) := by
    rw [← List.drop_eq_getElem_cons hi, List.take_append_drop]
  have hcovers := h.covers htext
  rw [List.take_succ_eq_append_getElem hi, Utf8.size_append, Utf8.size_cons, Utf8.size_nil,
    Nat.add_zero]
  rwa [Nat.zero_add] at hcovers

end Tiled

/-- A stream that comes to its end tiles the text. -/
theorem tiled_stream {distinguish : Bool} (text : List Char) (position offset : Nat)
    (hfault : (Scanner.stream distinguish ⟨text, position, offset⟩).fault = none) :
    Tiled offset text (Scanner.stream distinguish ⟨text, position, offset⟩).entries := by
  induction text using Scanner.lexeme_induction distinguish generalizing position offset with
  | nil =>
    rw [Scanner.stream_nil]
    exact .nil
  | blank first rest hblank ih =>
    rw [Scanner.stream_blank hblank] at hfault ⊢
    exact .blank hblank (ih _ _ hfault)
  | fault first rest fault hblank hreading =>
    rw [Scanner.stream_fault hblank hreading] at hfault
    cases hfault
  | lexeme first rest reading hblank hreading ih =>
    rw [Scanner.stream_lexeme hblank hreading] at hfault ⊢
    rw [← Lexeme.munch_append first rest]
    exact .lexeme (Lexeme.munch_ne_nil first rest) (Lexeme.span_entry _ _)
      (Lexeme.spelled_of_classify hreading _) (ih _ _ hfault)

/-! ### Sorted runs -/

theorem Scanner.offset_le_next (distinguish : Bool) (scanner : Scanner) :
    scanner.offset ≤ (scanner.next distinguish).2.offset := by
  have hpass {taken rest : List Char} {scanner : Scanner} :
      scanner.offset ≤ (scanner.pass taken rest).offset := Nat.le_add_right _ _
  have hskip : scanner.offset ≤ scanner.skipBlanks.offset := hpass
  obtain ⟨-, hnext⟩ | ⟨first, rest, -, ⟨fault, -, hnext⟩ | ⟨reading, -, hnext⟩⟩ :=
    next_cases distinguish scanner
  · rwa [hnext]
  · rwa [hnext]
  · rw [hnext]
    exact Nat.le_trans hskip hpass

theorem Scanner.Inside.offset_eq {text : List Char} {scanner : Scanner}
    (h : scanner.Inside text) (hrest : scanner.rest = []) : scanner.offset = Utf8.size text := by
  obtain ⟨front, htext, -, hoffset⟩ := h
  rw [hoffset, ← htext, hrest, List.append_nil]

def Entry.Between (start stop : Nat) (entry : Entry) : Prop :=
  (start : Int) ≤ entry.span.start ∧ entry.span.start ≤ entry.span.stop ∧ entry.span.stop = stop

namespace Lexer

variable {lexer lexer' : Lexer} {iterator iterator' : Iterator} {outcome : Outcome}

/-- An iterator that no other one has overtaken puts its entries where the scanner stands. -/
def Abreast (lexer : Lexer) : Iterator → Prop
  | .layout phase => ∀ place ∈ phase.place?, place = lexer.scanner.offset
  | _ => True

theorem between_of_next {entry : Entry}
    (h : (lexer.scanner.next lexer.distinguish).1 = .entry entry) :
    entry.Between lexer.scanner.offset lexer.moved.scanner.offset := by
  obtain ⟨lexeme, -, -, -, hspan, hoffset⟩ := Scanner.spelled_of_next h
  have hskip : lexer.scanner.offset ≤ lexer.scanner.skipBlanks.offset := Nat.le_add_right _ _
  rw [Entry.Between, hspan]
  refine ⟨Int.ofNat_le.mpr hskip, ?_, rfl⟩
  rw [hoffset]
  exact Int.ofNat_le.mpr (Nat.le_add_right _ _)

theorem abreast_after {entry : Entry} (h : entry.span.stop = lexer.scanner.offset) :
    lexer.Abreast (.layout (Layout.after entry)) := by
  intro place hplace
  unfold Layout.after at hplace
  split at hplace
  · obtain rfl := Option.some.inj hplace
    exact h
  · cases hplace

theorem abreast_settle {phase phase' : Phase} {widths : Widths} {entry : Entry}
    (h : lexer.Abreast (.layout phase))
    (hsettle : Layout.settle lexer.widths phase = some (entry, phase', widths)) :
    lexer.Abreast (.layout phase') ∧
      entry.Between lexer.scanner.offset lexer.scanner.offset := by
  obtain ⟨place, hplace, ⟨width, -, rfl, rfl, -⟩ | ⟨inner, -, rfl, hsame⟩ | ⟨rfl, rfl, -⟩⟩ :=
    Layout.settle_cases hsettle
  all_goals obtain rfl := h place hplace
  · exact ⟨nofun, le_rfl, le_rfl, rfl⟩
  · refine ⟨fun place' hplace' => ?_, le_rfl, le_rfl, rfl⟩
    exact (Option.some.inj (hsame.symm.trans hplace')).symm
  · exact ⟨nofun, le_rfl, le_rfl, rfl⟩

/-- What is pulled lies between the places where the scanner stands before and after it. -/
theorem Pulls.between (h : lexer.Pulls iterator outcome iterator' lexer')
    (hinside : lexer.scanner.Inside lexer.source.toList) (habreast : lexer.Abreast iterator) :
    lexer'.Abreast iterator' ∧
      ∀ entry ∈ outcome.yielded, entry.Between lexer.scanner.offset lexer'.scanner.offset := by
  induction h with
  | raw hnext => exact ⟨trivial, List.forall_mem_singleton.2 (between_of_next hnext)⟩
  | due hsettle =>
    obtain ⟨hnext, hbetween⟩ := abreast_settle habreast hsettle
    exact ⟨hnext, List.forall_mem_singleton.2 hbetween⟩
  | seek _ _ hnext =>
    have hbetween := between_of_next hnext
    exact ⟨abreast_after hbetween.2.2, List.forall_mem_singleton.2 hbetween⟩
  | @seekEnd lexer lexer' phase outcome iterator _ _ hnext _ ih =>
    have hstop : (lexer.moved.scanner.offset : Int) = lexer.stop :=
      congrArg Nat.cast ((hinside.next _).offset_eq (moved_rest_of_finished hnext))
    obtain ⟨hnext, hbetween⟩ := ih (hinside.next _) fun place hplace => by
      rw [hstop]
      exact (Option.some.inj hplace).symm
    refine ⟨hnext, fun entry hentry => ?_⟩
    obtain ⟨hstart, hle⟩ := hbetween entry hentry
    exact ⟨le_trans (Int.ofNat_le.mpr (Scanner.offset_le_next _ _)) hstart, hle⟩
  | _ => exact ⟨trivial, List.forall_mem_nil _⟩

theorem sorted_run (lexer : Lexer) (iterator : Iterator)
    (hinside : lexer.scanner.Inside lexer.source.toList) (habreast : lexer.Abreast iterator) :
    (∀ entry ∈ (lexer.run false iterator).entries, lexer.scanner.offset ≤ entry.span.start) ∧
      (lexer.run false iterator).entries.Pairwise fun first second =>
        first.span.stop ≤ second.span.start := by
  induction lexer, iterator using pull_induction with
  | finished lexer iterator houtcome =>
    rw [run_of_finished houtcome]
    exact ⟨List.forall_mem_nil _, .nil⟩
  | failed lexer iterator fault houtcome =>
    rw [run_of_failed houtcome]
    exact ⟨List.forall_mem_nil _, .nil⟩
  | entry lexer iterator entry houtcome ih =>
    have hpulls := lexer.pulls_pull iterator
    obtain ⟨hnext, hbetween⟩ := hpulls.between hinside habreast
    rw [houtcome] at hbetween
    obtain ⟨hstart, hle, hstop⟩ := hbetween entry List.mem_cons_self
    have hinside' : (lexer.pull iterator).lexer.scanner.Inside
        (lexer.pull iterator).lexer.source.toList := by
      rw [hpulls.source_eq]
      exact hpulls.inside hinside
    obtain ⟨hlater, hsorted⟩ := ih hinside' hnext
    rw [run_of_entry houtcome (.inl rfl)]
    constructor
    · refine List.forall_mem_cons.2 ⟨hstart, fun later hmem => ?_⟩
      exact le_trans hstart (le_trans hle (hstop ▸ hlater later hmem))
    · exact List.pairwise_cons.2 ⟨fun later hmem => hstop ▸ hlater later hmem, hsorted⟩

/-- What holds of all entries of the scanner and of all that layout puts in holds of a run. -/
theorem forall_mem_run_of {P : Entry → Prop}
    (hscanner : ∀ {distinguish scanner entry},
      (Scanner.next distinguish scanner).1 = .entry entry → P entry)
    (hlayout : ∀ {widths widths' phase phase' entry},
      Layout.settle widths phase = some (entry, phase', widths') → P entry)
    (lexer : Lexer) (iterator : Iterator) (strict : Bool) :
    ∀ entry ∈ (lexer.run strict iterator).entries, P entry := by
  have hpulls {lexer lexer' : Lexer} {iterator iterator' : Iterator} {outcome : Outcome}
      (h : lexer.Pulls iterator outcome iterator' lexer') {entry : Entry}
      (houtcome : outcome = .entry entry) : P entry := by
    induction h with
    | raw hnext =>
      obtain rfl := Outcome.entry.inj houtcome
      exact hscanner hnext
    | due hsettle =>
      obtain rfl := Outcome.entry.inj houtcome
      exact hlayout hsettle
    | seek _ _ hnext =>
      obtain rfl := Outcome.entry.inj houtcome
      exact hscanner hnext
    | seekEnd _ _ _ _ ih => exact ih houtcome
    | _ => cases houtcome
  refine @forall_mem_run lexer iterator strict (fun _ _ => True) P ?_ trivial
  exact fun {lexer iterator _} _ houtcome => ⟨hpulls (lexer.pulls_pull iterator) houtcome, trivial⟩

end Lexer

/-! ### Sources -/

theorem Entry.isEmpty_span_iff_of_next {distinguish : Bool} {scanner : Scanner} {entry : Entry}
    (h : (scanner.next distinguish).1 = .entry entry) :
    entry.span.isEmpty = true ↔ entry.isRaw = false := by
  obtain ⟨lexeme, hne, hspelled, -, hspan, hoffset⟩ := Scanner.spelled_of_next h
  have hpos := Utf8.size_pos hne
  rw [hspelled.isRaw, hspan, hoffset, Span.isEmpty, beq_iff_eq]
  constructor
  · intro hempty
    dsimp only at hempty
    omega
  · exact nofun

theorem Entry.isEmpty_span_iff_of_settle {widths widths' : Widths} {phase phase' : Phase}
    {entry : Entry} (h : Layout.settle widths phase = some (entry, phase', widths')) :
    entry.span.isEmpty = true ↔ entry.isRaw = false := by
  obtain ⟨place, -, ⟨width, -, rfl, -⟩ | ⟨inner, -, rfl, -⟩ | ⟨rfl, -⟩⟩ := Layout.settle_cases h
  all_goals exact ⟨fun _ => rfl, fun _ => beq_self_eq_true place⟩

/-- A permissive stream is cut off nowhere, so its raw entries tile the source. -/
theorem tiled_of_lex {settings : Settings} {source : String} {file : Option String}
    {entries : List Entry} (hstrict : settings.isStrict = false)
    (h : lex settings source file = .ok entries) :
    Tiled 0 source.toList (rawEntries entries) := by
  rw [lex_of_permissive hstrict] at h
  split at h
  · rename_i hfault
    obtain rfl := Except.ok.inj h
    rw [(rawEntries_tokens settings source none).1]
    exact tiled_stream source.toList 0 0 hfault
  · cases h

theorem isEmpty_span_iff_of_lex {settings : Settings} {source : String} {file : Option String}
    {entries : List Entry} (h : lex settings source file = .ok entries) :
    ∀ entry ∈ entries, entry.span.isEmpty = true ↔ entry.isRaw = false := by
  rw [← Run.entries_of_result h]
  exact Lexer.forall_mem_run_of Entry.isEmpty_span_iff_of_next Entry.isEmpty_span_iff_of_settle
    _ _ _

/-- How the entries of a stream lie in its source. -/
structure Lossless (source : String) (entries : List Entry) : Prop where
  /-- A raw entry spans a part of the source between two characters. The span slices that part, and
  the entry is spelled by it. -/
  spelled : ∀ entry ∈ rawEntries entries, ∃ i j, i < j ∧ j ≤ source.length ∧
    entry.span = ⟨Utf8.size (source.toList.take i), Utf8.size (source.toList.take j)⟩ ∧
    entry.span.slice source = .ok (String.ofList ((source.toList.take j).drop i)) ∧
    entry.Spelled ((source.toList.take j).drop i)
  /-- A character that no raw entry spans is a space or a tab. -/
  blank : ∀ i c, source.toList[i]? = some c →
    (∀ entry ∈ rawEntries entries,
      ¬(entry.span.start ≤ Utf8.size (source.toList.take i) ∧
        Utf8.size (source.toList.take (i + 1)) ≤ entry.span.stop)) →
    c = ' ' ∨ c = '\t'
  raw_sorted : (rawEntries entries).Pairwise fun first second =>
    first.span.stop ≤ second.span.start
  sorted : entries.Pairwise fun first second => first.span.stop ≤ second.span.start
  isEmpty_iff : ∀ entry ∈ entries, entry.span.isEmpty = true ↔ entry.isRaw = false
  within : ∀ entry ∈ entries, 0 ≤ entry.span.start ∧ entry.span.start ≤ entry.span.stop ∧
    entry.span.stop ≤ Utf8.size source.toList

/-- **Lossless spans.** The raw entries of a stream are those of a scan, and they cut up the source
without loss. Layout puts its entries between them, and those alone are empty. -/
theorem lossless_spans {settings : Settings} {source : String} {file : Option String}
    {entries : List Entry} (hstrict : settings.isStrict = false)
    (h : lex settings source file = .ok entries) :
    scan settings source = .ok (rawEntries entries) ∧ Lossless source entries := by
  have htiled := tiled_of_lex hstrict h
  have hempty := isEmpty_span_iff_of_lex h
  have hfault : (rawStream settings source).fault = none := by
    rw [lex_of_permissive hstrict] at h
    split at h
    · assumption
    · cases h
  rw [lex_of_permissive hstrict, hfault] at h
  obtain rfl := Except.ok.inj h
  have hsorted := (Lexer.sorted_run (Lexer.ofSettings settings source) .tokens
    (Scanner.inside_ofSource source) nofun).2
  refine ⟨?_, ?_, ?_, hsorted.sublist List.filter_sublist, hsorted, hempty, ?_⟩
  · rw [scan_eq_stream, hfault, (rawEntries_tokens settings source none).1]
  · intro entry hentry
    obtain ⟨i, j, hlt, hle, hspan, hspelled⟩ := htiled.exists_bounds hentry
    refine ⟨i, j, hlt, hle, hspan, ?_, hspelled⟩
    rw [hspan]
    exact Span.slice_take source (Nat.le_of_lt hlt)
  · intro i c hc hcovered
    obtain hblank | ⟨entry, hentry, hstart, hstop⟩ := htiled.blank_or_covered hc
    · simpa [isBlank] using hblank
    · exact absurd ⟨hstart, hstop⟩ (hcovered entry hentry)
  · intro entry hentry
    have hwithin := Lexer.within_run (Lexer.placed_ofSettings settings source none (.inr rfl)) _
      entry hentry
    exact ⟨hwithin.start_nonneg, hwithin.start_le_stop, hwithin.stop_le⟩

/-- Characters of one, two and four bytes, and a block that is opened and closed. -/
theorem lossless_spans_widths :
    let source := "dé \n\t007😀"
    let entries : List Entry :=
      [.token ⟨.identifier, ⟨0, 1⟩, .text "d"⟩, .error ⟨.unrecognizedToken, ⟨1, 3⟩, "é"⟩,
        .token ⟨.newline, ⟨4, 6⟩, .text "\n\t"⟩, Layout.indentation 6,
        .token ⟨.integer, ⟨6, 9⟩, .number 7⟩, .error ⟨.unrecognizedToken, ⟨9, 13⟩, "😀"⟩,
        Layout.deindentation 13]
    Settings.isStrict {} = false ∧ lex {} source = .ok entries ∧
      scan {} source = .ok (rawEntries entries) ∧ Lossless source entries := by
  intro source entries
  have h : lex {} source = .ok entries := by cbv
  exact ⟨rfl, h, lossless_spans rfl h⟩

end Offside
