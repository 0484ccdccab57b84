import Mathlib
import Offside.Proofs.CommandModes
import Offside.Proofs.Locations
import Offside.Proofs.LosslessSpans

/-!
# Reading order

The entries of a stream start between two characters of the source, and their spans are sorted. So
their places come in the order in which the source is read, and so do the diagnostics that the
command writes: `reading_order`.
-/

namespace Offside

variable {source : String}

/-! ### Boundaries -/

theorem Scanner.Inside.isBoundary {scanner : Scanner} (h : scanner.Inside source.toList) :
    Location.IsBoundary source scanner.offset := by
  obtain ⟨front, htext, -, hoffset⟩ := h
  exact ⟨front, ⟨scanner.rest, htext⟩, congrArg Nat.cast hoffset⟩

theorem Lexer.abreast_tokens (lexer : Lexer) : lexer.Abreast .tokens :=
  fun _ hplace => by cases hplace

/-- What is pulled ends where the scanner then stands, so it ends between two characters. -/
theorem Lexer.isBoundary_stop_run (lexer : Lexer) (iterator : Iterator)
    (hinside : lexer.scanner.Inside lexer.source.toList) (habreast : lexer.Abreast iterator)
    (strict : Bool) :
    ∀ entry ∈ (lexer.run strict iterator).entries,
      Location.IsBoundary lexer.source entry.span.stop := by
  have hpull {other : Lexer} {iterator : Iterator} {entry : Entry}
      (hother : other.source = lexer.source ∧ other.scanner.Inside lexer.source.toList ∧
        other.Abreast iterator)
      (houtcome : (other.pull iterator).outcome = .entry entry) :
      Location.IsBoundary lexer.source entry.span.stop ∧
        ((other.pull iterator).lexer.source = lexer.source ∧
          (other.pull iterator).lexer.scanner.Inside lexer.source.toList ∧
          (other.pull iterator).lexer.Abreast (other.pull iterator).iterator) := by
    obtain ⟨hsource, hinside, habreast⟩ := hother
    have hpulls := other.pulls_pull iterator
    have hinside' := hpulls.inside hinside
    obtain ⟨hnext, hbetween⟩ := hpulls.between (hsource ▸ hinside) habreast
    rw [houtcome] at hbetween
    obtain ⟨-, -, hstop⟩ := hbetween entry List.mem_cons_self
    exact ⟨hstop ▸ hinside'.isBoundary, hpulls.source_eq.trans hsource, hinside', hnext⟩
  exact forall_mem_run hpull ⟨rfl, hinside, habreast⟩

section Stream

variable {settings : Settings} {file : Option String} {entries : List Entry}

theorem isBoundary_stop_of_lex (h : lex settings source file = .ok entries) :
    ∀ entry ∈ entries, Location.IsBoundary source entry.span.stop := by
  rw [← Run.entries_of_result h]
  exact Lexer.isBoundary_stop_run (Lexer.ofSettings settings source) .tokens
    (Scanner.inside_ofSource source) (Lexer.abreast_tokens _) _

theorem isBoundary_start_of_lex (hpermissive : settings.isStrict = false)
    (h : lex settings source file = .ok entries) :
    ∀ entry ∈ entries, Location.IsBoundary source entry.span.start := by
  intro entry hentry
  cases hraw : entry.isRaw with
  | false =>
    have hempty := (isEmpty_span_iff_of_lex h entry hentry).2 hraw
    rw [Span.isEmpty, beq_iff_eq] at hempty
    rw [hempty]
    exact isBoundary_stop_of_lex h entry hentry
  | true =>
    have hmem : entry ∈ rawEntries entries := List.mem_filter.2 ⟨hentry, hraw⟩
    obtain ⟨before, lexeme, after, hsource, -, hspan, -⟩ :=
      (tiled_of_lex hpermissive h).exists_lexeme hmem
    refine ⟨before, ⟨lexeme ++ after, ?_⟩, ?_⟩
    · rw [hsource, List.append_assoc]
    · rw [hspan, Nat.zero_add]

theorem sorted_of_lex (hpermissive : settings.isStrict = false)
    (h : lex settings source file = .ok entries) :
    entries.Pairwise fun first second => first.span.stop ≤ second.span.start := by
  rw [← Run.entries_of_result h, lexRun, hpermissive]
  exact (Lexer.sorted_run (Lexer.ofSettings settings source) .tokens
    (Scanner.inside_ofSource source) (Lexer.abreast_tokens _)).2

theorem starts_sorted (hpermissive : settings.isStrict = false)
    (h : lex settings source file = .ok entries) :
    entries.Pairwise fun first second =>
      first.span.start ≤ second.span.start ∧
        (first.isRaw = true → first.span.start < second.span.start) := by
  have hwithin := within_of_lex h
  have hempty := isEmpty_span_iff_of_lex h
  refine (sorted_of_lex hpermissive h).imp_of_mem fun {first second} hfirst _ hsorted => ?_
  have hle := (hwithin first hfirst).start_le_stop
  refine ⟨hle.trans hsorted, fun hraw => (lt_of_le_of_ne hle fun hsame => ?_).trans_le hsorted⟩
  have hfalse := (hempty first hfirst).1 (beq_iff_eq.2 hsame)
  rw [hraw] at hfalse
  cases hfalse

theorem places_sorted (hpermissive : settings.isStrict = false)
    (h : lex settings source file = .ok entries) (shown : Option String) :
    entries.Pairwise fun first second =>
      (Location.ofSpan source first.span shown).place ≤
          (Location.ofSpan source second.span shown).place ∧
        (first.isRaw = true →
          (Location.ofSpan source first.span shown).place <
            (Location.ofSpan source second.span shown).place) := by
  have hmono := Location.strictMonoOn_place source shown
  have hstart := isBoundary_start_of_lex hpermissive h
  refine (starts_sorted hpermissive h).imp_of_mem fun {first second} hfirst hsecond hstarts => ?_
  exact ⟨(hmono.le_iff_le (hstart first hfirst) (hstart second hsecond)).2 hstarts.1,
    fun hraw => hmono (hstart first hfirst) (hstart second hsecond) (hstarts.2 hraw)⟩

end Stream

/-! ### Diagnostics -/

theorem LexError.isRaw_of_kind_ne {error : LexError} (h : error.kind ≠ .inconsistentDedent) :
    (Entry.error error).isRaw = true := by
  simpa [Entry.isRaw] using h

theorem pairwise_errorsIn {R : Entry → Entry → Prop} {S : LexError → LexError → Prop}
    {entries : List Entry} (h : entries.Pairwise R)
    (himp : ∀ first second, R (.error first) (.error second) → S first second) :
    (errorsIn entries).Pairwise S := by
  refine h.filterMap Entry.error? fun first second hfirst error herror other hother => ?_
  cases first <;> cases second <;> simp_all [Entry.error?]

/-- **Reading order.** The places of the entries of a permissive stream are sorted, and a raw entry
has a place before those of the entries behind it. So the diagnostics that the command writes are in
reading order, and only a width that fits no block has its place in common with a later one. -/
theorem reading_order {settings : Settings} {file : Option String} {entries : List Entry}
    (hpermissive : settings.isStrict = false) (h : lex settings source file = .ok entries) :
    (∀ shown : Option String,
      let place (span : Span) := (Location.ofSpan source span shown).place
      (entries.Pairwise fun first second =>
        place first.span ≤ place second.span ∧
          (first.isRaw = true → place first.span < place second.span)) ∧
      (errorsIn entries).Pairwise fun first second =>
        place first.span ≤ place second.span ∧
          (place first.span = place second.span → first.kind = .inconsistentDedent)) ∧
    ∀ (channel : String) {path : String} {host : CommandLine.Host} {arguments : List String}
      {options : CommandLine.Options} {bytes : List UInt8},
      CommandLine.Names host arguments options path bytes source → options.settings = settings →
        ∃ before after, (CommandLine.run channel host arguments).stderr =
            before ++ String.join ((errorsIn entries).map fun error =>
              (Location.ofSpan source error.span (some path)).render ++ ": " ++ error.message ++
                "\n") ++ after ∧
          (options.verbose = false → before = "" ∧ after = "") := by
  refine ⟨fun shown => ?_, fun channel path host arguments options bytes hnames hsettings => ?_⟩
  · have hplaces := places_sorted hpermissive h shown
    refine ⟨hplaces, pairwise_errorsIn hplaces fun first second hsorted => ?_⟩
    refine ⟨hsorted.1, fun hsame => ?_⟩
    by_contra hkind
    exact absurd hsame (hsorted.2 (LexError.isRaw_of_kind_ne hkind)).ne
  · have hlex : lex options.settings source (some path) = .ok entries := by
      rw [hsettings]
      rw [lex, Run.result_eq_ok_iff] at h ⊢
      exact h
    rw [hnames.run_eq, CommandLine.reportSource_of_ok hlex]
    refine ⟨_, _, rfl, fun hquiet => ?_⟩
    exact ⟨CommandLine.verboseText_of_quiet hquiet _, CommandLine.verboseText_of_quiet hquiet _⟩

/-- A character of two bytes in front of a mark, and a width that fits no block in front of
another: there two diagnostics have one place. -/
theorem reading_order_shared_place :
    let source := "é#\n  b\n #"
    let errors : List LexError :=
      [⟨.unrecognizedToken, ⟨0, 2⟩, "é"⟩, ⟨.unrecognizedToken, ⟨2, 3⟩, "#"⟩,
        ⟨.inconsistentDedent, ⟨9, 9⟩, ""⟩, ⟨.unrecognizedToken, ⟨9, 10⟩, "#"⟩]
    let location (error : LexError) := Location.ofSpan source error.span (some "/a")
    let host : CommandLine.Host :=
      { edition := .late, files := fun _ => .ok (Utf8.encode source.toList) }
    ({} : Settings).isStrict = false ∧
      (∃ entries, lex {} source = .ok entries ∧ errorsIn entries = errors) ∧
      CommandLine.Names host ["/a"] { input := some "/a" } "/a" (Utf8.encode source.toList)
        source ∧
      errors.map (fun error => ((location error).line, (location error).column)) =
        [(1, 1), (1, 2), (3, 2), (3, 2)] ∧
      (errors.Pairwise fun first second => (location first).place ≤ (location second).place) ∧
      (CommandLine.run "pyrsc" host ["/a"]).stderr =
        "/a:1:1: unrecognized input 'é'\n" ++ "/a:1:2: unrecognized input '#'\n" ++
          "/a:3:2: unindent does not match any outer indentation level\n" ++
          "/a:3:2: unrecognized input '#'\n" := by
  intro source errors location host
  obtain ⟨entries, hlex, herrors⟩ :
      ∃ entries, lex {} source = .ok entries ∧ errorsIn entries = errors := ⟨_, by cbv, by cbv⟩
  have hnames : CommandLine.Names host ["/a"] { input := some "/a" } "/a"
      (Utf8.encode source.toList) source :=
    ⟨by cbv, rfl, by cbv, Utf8.decode_encode _⟩
  obtain ⟨hplaces, hdriver⟩ := reading_order rfl hlex
  obtain ⟨before, after, hstderr, hquiet⟩ := hdriver "pyrsc" hnames rfl
  obtain ⟨rfl, rfl⟩ := hquiet rfl
  rw [herrors] at hplaces hstderr
  refine ⟨rfl, ⟨entries, hlex, herrors⟩, hnames, by cbv, (hplaces (some "/a")).2.imp And.left, ?_⟩
  rw [hstderr, String.empty_append, String.append_empty]
  decide +kernel

end Offside
