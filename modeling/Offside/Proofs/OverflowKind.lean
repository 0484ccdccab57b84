import Mathlib
import Offside.Proofs.RawEntries

/-!
# The kind of an overflow

Whether overflows are distinguished decides about a kind and about nothing else. `classify_merge`
says so of one lexeme, and as layout does not look at errors the streams differ in nothing more:
`lex_merge`. No kind is lost by it, since an unrecognized token that begins with a digit can only be
an overflow.
-/

namespace Offside

/-! ### Kinds -/

/-- The kind that is told when overflows are not distinguished. -/
def ErrorKind.merge : ErrorKind → ErrorKind
  | .integerOverflow => .unrecognizedToken
  | kind => kind

namespace Entry

def merge : Entry → Entry
  | .token t => .token t
  | .error e => .error { e with kind := e.kind.merge }

def IsOverflow : Entry → Prop
  | .token _ => False
  | .error e => e.kind = .integerOverflow

instance : DecidablePred IsOverflow
  | .token _ => isFalse nofun
  | .error e => inferInstanceAs (Decidable (e.kind = .integerOverflow))

/-- An unrecognized token with a text that begins with a digit. -/
def IsUnrecognizedNumber : Entry → Prop
  | .token _ => False
  | .error e => e.kind = .unrecognizedToken ∧ ∃ c ∈ e.text.toList.head?, Text.isDigit c = true

end Entry

/-! ### Lexemes -/

namespace Lexeme

variable {first : Char} {rest : List Char} {reading : Reading}

def Reading.merge : Reading → Reading
  | .token kind value => .token kind value
  | .error kind text => .error kind.merge text

theorem Reading.entry_merge (reading : Reading) (span : Span) :
    reading.merge.entry span = (reading.entry span).merge := by
  cases reading <;> rfl

theorem classifyInteger_merge (digits : List Char) :
    classifyInteger false digits = (classifyInteger true digits).map Reading.merge := by
  rw [classifyInteger, classifyInteger]
  split_ifs
  · rfl
  · cases Text.number? digits with
    | error fault => rfl
    | ok n =>
      simp only [Except.map]
      split_ifs <;> rfl

theorem classify_merge (first : Char) (lexeme : List Char) :
    classify false first lexeme = (classify true first lexeme).map Reading.merge := by
  rw [classify, classify]
  split_ifs
  · rfl
  · rw [classifyWord]
    split_ifs <;> rfl
  · exact classifyInteger_merge lexeme
  · rw [classifyPunctuation]
    split_ifs <;> rfl

theorem head?_munch (first : Char) (rest : List Char) :
    (munch first rest).1.head? = some first := by
  have hall := congrArg List.head? (munch_append first rest)
  rwa [List.head?_append_of_ne_nil _ (munch_ne_nil first rest)] at hall

/-- **What an overflow begins with.** A digit is never an unrecognized token in itself, and nothing
but a digit begins an overflow. -/
theorem isOverflow_iff (hreading : classify true first (munch first rest).1 = .ok reading)
    (span : Span) :
    (reading.entry span).IsOverflow ↔ (reading.entry span).merge.IsUnrecognizedNumber := by
  rw [classify] at hreading
  split_ifs at hreading with hnewline hletter hdigit
  · cases hreading
    exact Iff.rfl
  · obtain rfl := Except.ok.inj hreading
    rw [classifyWord]
    split_ifs <;> exact Iff.rfl
  · obtain ⟨-, rfl⟩ | rfl := classifyInteger_cases hreading
    · exact Iff.rfl
    · refine iff_of_true rfl ⟨rfl, first, ?_, hdigit⟩
      rw [String.toList_ofList]
      exact head?_munch first rest
  · obtain rfl := Except.ok.inj hreading
    rw [classifyPunctuation]
    split_ifs
    iterate 4 exact Iff.rfl
    refine iff_of_false (fun hoverflow => by cases hoverflow) ?_
    rintro ⟨-, c, hc, hcdigit⟩
    rw [String.toList_ofList, head?_munch] at hc
    obtain rfl := Option.some.inj hc
    exact hdigit hcdigit

end Lexeme

/-! ### Streams -/

def RawStream.merge (stream : RawStream) : RawStream :=
  { stream with entries := stream.entries.map Entry.merge }

theorem Scanner.stream_merge (text : List Char) (position offset : Nat) :
    stream false ⟨text, position, offset⟩ = (stream true ⟨text, position, offset⟩).merge := by
  induction text using lexeme_induction true generalizing position offset with
  | nil =>
    rw [stream_nil, stream_nil]
    rfl
  | blank first rest hblank ih =>
    rw [stream_blank hblank, stream_blank hblank]
    exact ih _ _
  | fault first rest fault hblank hreading =>
    have hmerged : Lexeme.classify false first (Lexeme.munch first rest).1 = .error fault := by
      rw [Lexeme.classify_merge, hreading]
      rfl
    rw [stream_fault hblank hreading, stream_fault hblank hmerged]
    rfl
  | lexeme first rest reading hblank hreading ih =>
    have hmerged :
        Lexeme.classify false first (Lexeme.munch first rest).1 = .ok reading.merge := by
      rw [Lexeme.classify_merge, hreading]
      rfl
    rw [stream_lexeme hblank hreading, stream_lexeme hblank hmerged, ih,
      Lexeme.Reading.entry_merge]
    rfl

theorem Scanner.isOverflow_of_mem_stream {text : List Char} {position offset : Nat} {entry : Entry}
    (h : entry ∈ (stream true ⟨text, position, offset⟩).entries) :
    entry.IsOverflow ↔ entry.merge.IsUnrecognizedNumber := by
  obtain ⟨before, after, hsplit⟩ := List.append_of_mem h
  obtain ⟨-, first, rest, reading, -, start, -, -, hreading, -, rfl, -⟩ := split_stream hsplit
  exact Lexeme.isOverflow_iff hreading _

/-! ### Layout -/

namespace Layout

variable {widths widths' : Widths} {phase phase' : Phase} {entry : Entry}

@[simp]
theorem after_merge (entry : Entry) : after entry.merge = after entry := by
  cases entry <;> rfl

theorem merge_settle (h : settle widths phase = some (entry, phase', widths')) :
    entry.merge = entry := by
  obtain ⟨place, -, ⟨width, -, rfl, -⟩ | ⟨inner, -, rfl, -⟩ | ⟨rfl, -⟩⟩ := settle_cases h
  all_goals rfl

theorem map_merge_settleAll (widths : Widths) (phase : Phase) :
    ((settleAll widths phase).1.map Prod.fst).map Entry.merge =
      (settleAll widths phase).1.map Prod.fst := by
  induction widths, phase using settle_induction with
  | settled widths phase hsettle =>
    rw [settleAll_of_none hsettle]
    rfl
  | due widths phase entry phase' widths' hsettle ih =>
    rw [settleAll_of_some hsettle, List.map_cons, List.map_cons, merge_settle hsettle, ih]

theorem arrange_merge (place : Int) (widths : Widths) (raw : List Entry) :
    (arrange place widths (raw.map Entry.merge)).1.map Prod.fst =
      ((arrange place widths raw).1.map Prod.fst).map Entry.merge := by
  induction raw generalizing widths with
  | nil => exact (map_merge_settleAll widths (.flush place)).symm
  | cons entry raw ih =>
    rw [List.map_cons, arrange_cons, arrange_cons, after_merge]
    simp only [List.map_cons, List.map_append, ih]
    rw [map_merge_settleAll]

end Layout

/-! ### Sources -/

theorem Entry.isOverflow_iff_of_not_isRaw {entry : Entry} (h : entry.isRaw = false) :
    entry.IsOverflow ↔ entry.merge.IsUnrecognizedNumber := by
  obtain token | ⟨kind, span, text⟩ := entry
  · exact Iff.rfl
  · obtain rfl : kind = .inconsistentDedent := by simpa [Entry.isRaw] using h
    refine iff_of_false (fun hoverflow => by cases hoverflow) ?_
    rintro ⟨hkind, -⟩
    cases hkind

/-- **The kind of an overflow.** Of two permissive streams of a source, one with overflows
distinguished and one without, the second is the first with the kind of each overflow replaced, and
when one of them does not exist neither does the other, for the same reason. In the second the
overflows are just the unrecognized tokens that begin with a digit. -/
theorem lex_merge {distinct merged : Settings} (hdistinct : distinct.isStrict = false)
    (hmerged : merged.isStrict = false) (hdistinguishes : distinct.distinguishes = true)
    (hmerges : merged.distinguishes = false) (source : String) (file : Option String) :
    lex merged source file = (lex distinct source file).map (List.map Entry.merge) ∧
      ∀ entries, lex distinct source file = .ok entries →
        ∀ entry ∈ entries, entry.IsOverflow ↔ entry.merge.IsUnrecognizedNumber := by
  constructor
  · have hstream : rawStream merged source = (rawStream distinct source).merge := by
      rw [rawStream, rawStream, hdistinguishes, hmerges]
      exact Scanner.stream_merge _ _ _
    rw [lex_eq_arrange hmerged, lex_eq_arrange hdistinct, hstream, RawStream.merge]
    cases (rawStream distinct source).fault with
    | some fault => rfl
    | none => exact congrArg Except.ok (Layout.arrange_merge _ _ _)
  · intro entries hentries entry hentry
    cases hraw : entry.isRaw with
    | false => exact Entry.isOverflow_iff_of_not_isRaw hraw
    | true =>
      have hmem : entry ∈ (rawStream distinct source).entries := by
        rw [(rawEntries_of_lex hdistinct hentries).2]
        exact List.mem_filter.2 ⟨hentry, hraw⟩
      rw [rawStream, hdistinguishes] at hmem
      exact Scanner.isOverflow_of_mem_stream hmem

/-- A number that is too large, a digit of another script, and a dedent that fits no block. -/
theorem lex_merge_digits :
    let merged : Settings := { distinguishOverflow := .null }
    let source := "99999999999999999999\n  ٣\n #"
    let overflow (kind : ErrorKind) : Entry := .error ⟨kind, ⟨0, 20⟩, "99999999999999999999"⟩
    let others : List Entry :=
      [.token ⟨.newline, ⟨20, 23⟩, .text "\n  "⟩, Layout.indentation 23,
        .error ⟨.unrecognizedToken, ⟨23, 25⟩, "٣"⟩, .token ⟨.newline, ⟨25, 27⟩, .text "\n "⟩,
        Layout.deindentation 27, Layout.inconsistentDedent 27,
        .error ⟨.unrecognizedToken, ⟨27, 28⟩, "#"⟩]
    Settings.isStrict {} = false ∧ merged.isStrict = false ∧ Settings.distinguishes {} = true ∧
      merged.distinguishes = false ∧
      lex {} source = .ok (overflow .integerOverflow :: others) ∧
      lex merged source = .ok (overflow .unrecognizedToken :: others) ∧
      (overflow .unrecognizedToken).IsUnrecognizedNumber ∧
      ∀ entry ∈ others, ¬entry.merge.IsUnrecognizedNumber := by
  intro merged source overflow others
  have hdistinct : Settings.isStrict {} = false := rfl
  have hpermissive : merged.isStrict = false := rfl
  have hdistinguishes : Settings.distinguishes {} = true := rfl
  have hmerges : merged.distinguishes = false := rfl
  have hlex : lex {} source = .ok (overflow .integerOverflow :: others) := by cbv
  have hnone : ∀ entry ∈ others, ¬entry.IsOverflow := by decide
  obtain ⟨hmerged, hoverflows⟩ :=
    lex_merge hdistinct hpermissive hdistinguishes hmerges source none
  rw [hlex] at hmerged
  obtain ⟨hfirst, hothers⟩ := List.forall_mem_cons.1 (hoverflows _ hlex)
  refine ⟨hdistinct, hpermissive, hdistinguishes, hmerges, hlex, hmerged, hfirst.1 rfl, ?_⟩
  exact fun entry hentry hnumber => hnone entry hentry ((hothers entry hentry).2 hnumber)

end Offside
