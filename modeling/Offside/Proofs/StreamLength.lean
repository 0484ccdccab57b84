import Offside.Proofs.BlockTree
import Offside.Proofs.MeasuredLines

/-!
# The length of a stream

One newline may close any number of blocks, so what it adds to the stream is paid for beforehand. A
block is paid for, with its closing, by the newline that opens it: the line behind has a width, so
that newline has two characters at least. The same two characters pay for a dedent that fits no
block, since such a newline opens none. `settle_credit` is what one due entry costs, and
`length_lex_le` what all of them come to.
-/

namespace Offside

/-! ### Layout -/

/-- How many entries the newline behind which the layout stands may still give rise to, those that
close the open blocks left aside and the closing of a block that is still to be opened included. -/
def Phase.credit : Phase → Nat
  | .compare width _ => if width = 0 then 0 else 2
  | .close width _ => if width = 0 then 0 else 1
  | _ => 0

namespace Layout

variable {widths widths' : Widths} {phase phase' : Phase} {entry : Entry}

/-- **One due entry.** It is paid for by the newline or by the block that it closes. -/
theorem settle_credit (h : settle widths phase = some (entry, phase', widths')) :
    1 + phase'.credit + widths'.length ≤ phase.credit + widths.length := by
  cases phase with
  | seek => cases h
  | compare width place =>
    rw [settle] at h
    split_ifs at h with hopen hclose
    · cases h
      have hwidth : width ≠ 0 := Nat.ne_zero_of_lt hopen
      simp only [Phase.credit, if_neg hwidth, List.length_cons]
      omega
    · cases h
      have hlength := Widths.length_of_lt_innermost hclose
      simp only [Phase.credit]
      split_ifs <;> omega
  | close width place =>
    rw [settle] at h
    split_ifs at h with hclose hreport
    · cases h
      have hlength := Widths.length_of_lt_innermost hclose
      simp only [Phase.credit]
      omega
    · cases h
      have hwidth : width ≠ 0 := Nat.ne_zero_of_lt hreport
      simp only [Phase.credit, if_neg hwidth]
      omega
  | flush place =>
    rw [settle] at h
    split_ifs at h with hempty
    cases h
    cases widths with
    | nil => exact absurd rfl hempty
    | cons inner widths =>
      simp only [Phase.credit, List.length_cons, List.tail_cons]
      omega

/-- **All that is due.** The blocks that are open in the end stay paid for. -/
theorem length_settleAll_le (widths : Widths) (phase : Phase) :
    (settleAll widths phase).1.length + (settleAll widths phase).2.length ≤
      phase.credit + widths.length := by
  induction widths, phase using settle_induction with
  | settled widths phase hsettle =>
    rw [settleAll_of_none hsettle]
    simp
  | due widths phase entry phase' widths' hsettle ih =>
    have hcredit := settle_credit hsettle
    rw [settleAll_of_some hsettle, List.length_cons]
    dsimp only
    omega

theorem lineWidth_newline_le (run : List Char) :
    lineWidth (.text (String.ofList ('\n' :: run))) ≤ run.length := by
  have hnewline : '\n' ∈ '\n' :: run := List.mem_cons_self
  obtain ⟨before, line, hsplit, hline⟩ := exists_lastLine hnewline
  have hlength := congrArg List.length hsplit
  rw [List.length_cons, List.length_append, List.length_cons] at hlength
  rw [lineWidth_text, String.toList_ofList, hsplit, lastLine_append hline]
  omega

end Layout

/-! ### Lexemes -/

section Lexemes

variable {distinguish : Bool} {first : Char} {rest : List Char} {reading : Lexeme.Reading}

/-- **One lexeme.** Two characters pay for three entries, and one character for its own entry. -/
theorem credit_after_le
    (hreading : Lexeme.classify distinguish first (Lexeme.munch first rest).1 = .ok reading)
    (span : Span) :
    2 * (1 + (Layout.after (reading.entry span)).credit) ≤
      3 * (Lexeme.munch first rest).1.length := by
  by_cases hfirst : first = '\n'
  · subst hfirst
    rw [Lexeme.munch_newline] at hreading ⊢
    obtain rfl := Except.ok.inj hreading
    have hwidth := Layout.lineWidth_newline_le (rest.takeWhile isLayout)
    simp only [Lexeme.Reading.entry, Layout.after, Phase.credit, List.length_cons]
    split_ifs <;> omega
  · have hseek : Layout.after (reading.entry span) = .seek := by
      refine after_eq_seek fun value => ?_
      rw [Lexeme.Reading.reading_entry]
      exact ne_newline_of_classify hfirst hreading value
    have hpos := List.length_pos_iff.2 (Lexeme.munch_ne_nil first rest)
    simp only [hseek, Phase.credit]
    omega

end Lexemes

namespace Scanner

variable {distinguish : Bool}

theorem length_stream_le (text : List Char) (position offset : Nat) :
    (stream distinguish ⟨text, position, offset⟩).entries.length ≤ text.length := by
  induction text using lexeme_induction distinguish generalizing position offset with
  | nil =>
    rw [stream_nil]
    exact Nat.zero_le _
  | blank first rest hblank ih =>
    rw [stream_blank hblank]
    exact Nat.le_succ_of_le (ih _ _)
  | fault first rest fault hblank hreading =>
    rw [stream_fault hblank hreading]
    exact Nat.zero_le _
  | lexeme first rest reading hblank hreading ih =>
    have hothers := ih (position + (Lexeme.munch first rest).1.length)
      (offset + Utf8.size (Lexeme.munch first rest).1)
    have hrest := Lexeme.munch_length first rest
    rw [stream_lexeme hblank hreading, RawStream.entries_prepend, List.length_append,
      List.length_singleton, List.length_cons]
    omega

theorem length_arrange_stream_le (place : Int) (widths : Widths) (text : List Char)
    (position offset : Nat) :
    2 * (Layout.arrange place widths
        (stream distinguish ⟨text, position, offset⟩).entries).1.length ≤
      3 * text.length + 2 * widths.length := by
  have hflush (widths : Widths) : (Layout.arrange place widths []).1.length ≤ widths.length := by
    have hall := Layout.length_settleAll_le widths (.flush place)
    simp only [Phase.credit] at hall
    rw [Layout.arrange]
    omega
  induction text using lexeme_induction distinguish generalizing widths position offset with
  | nil =>
    have hclosings := hflush widths
    rw [stream_nil]
    dsimp only
    omega
  | blank first rest hblank ih =>
    have hothers := ih widths (position + 1) (offset + first.utf8Size)
    rw [stream_blank hblank, List.length_cons]
    omega
  | fault first rest fault hblank hreading =>
    have hclosings := hflush widths
    rw [stream_fault hblank hreading]
    dsimp only
    omega
  | lexeme first rest reading hblank hreading ih =>
    rw [stream_lexeme hblank hreading]
    set entry := reading.entry ⟨offset, ↑(offset + Utf8.size (Lexeme.munch first rest).1)⟩
    have hlexeme : 2 * (1 + (Layout.after entry).credit) ≤ _ := credit_after_le hreading _
    have hdue := Layout.length_settleAll_le widths (Layout.after entry)
    have hothers := ih (Layout.settleAll widths (Layout.after entry)).2
      (position + (Lexeme.munch first rest).1.length)
      (offset + Utf8.size (Lexeme.munch first rest).1)
    have htext := congrArg List.length (Lexeme.munch_append first rest)
    rw [List.length_append] at htext
    rw [RawStream.entries_prepend, List.singleton_append, Layout.arrange_cons, List.length_cons,
      List.length_append]
    -- The blocks that are left open go over from what is due here to the others.
    omega

end Scanner

/-- **The length of a stream.** A permissive stream has at most three entries for every two
characters of its source, and the raw stream at most one for each. -/
theorem length_lex_le {settings : Settings} (hpermissive : settings.isStrict = false)
    {source : String} {file : Option String} {entries : List Entry}
    (h : lex settings source file = .ok entries) :
    2 * entries.length ≤ 3 * source.length ∧
      ∃ raw, scan settings source = .ok raw ∧ raw.length ≤ source.length := by
  obtain ⟨hfault, harranged⟩ := arrange_of_lex hpermissive h
  constructor
  · rw [← harranged, List.length_map, ← String.length_toList]
    exact Scanner.length_arrange_stream_le (Utf8.size source.toList) [] source.toList 0 0
  · refine ⟨(rawStream settings source).entries, ?_, ?_⟩
    · rw [scan_eq_stream, hfault]
    · rw [← String.length_toList]
      exact Scanner.length_stream_le source.toList 0 0

/-- Two characters, three entries. -/
theorem length_lex_le_blank :
    let entries : List Entry :=
      [.token ⟨.newline, ⟨0, 2⟩, .text "\n "⟩, Layout.indentation 2, Layout.deindentation 2]
    Settings.isStrict {} = false ∧ lex {} "\n " = .ok entries ∧
      2 * entries.length = 3 * "\n ".length ∧ 2 * entries.length ≤ 3 * "\n ".length ∧
      ∃ raw, scan {} "\n " = .ok raw ∧ raw.length ≤ "\n ".length := by
  intro entries
  have hpermissive : Settings.isStrict {} = false := rfl
  have hlex : lex {} "\n " = .ok entries := by cbv
  exact ⟨hpermissive, hlex, by decide, length_lex_le hpermissive hlex⟩

end Offside
