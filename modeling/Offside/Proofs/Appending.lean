import Mathlib
import Offside.Proofs.MeasuredLines
import Offside.Proofs.Seams

/-!
# Appending

What is put behind a text may reach back into its last lexeme and no farther. So the raw entries but
for the last are settled, and with them everything that layout puts in before the last one:
`decided_append`.
-/

namespace Offside

/-! ### Scanning -/

theorem Scanner.dropLast_stream_prefix (distinguish : Bool) (text suffix : List Char)
    (position offset : Nat) :
    (stream distinguish ⟨text, position, offset⟩).entries.dropLast <+:
      (stream distinguish ⟨text ++ suffix, position, offset⟩).entries := by
  induction text using lexeme_induction distinguish generalizing position offset with
  | nil =>
    rw [stream_nil]
    exact List.nil_prefix
  | blank first rest hblank ih =>
    rw [List.cons_append, stream_blank hblank, stream_blank hblank]
    exact ih _ _
  | fault first rest fault hblank hreading =>
    rw [stream_fault hblank hreading]
    exact List.nil_prefix
  | lexeme first rest reading hblank hreading ih =>
    rw [stream_lexeme hblank hreading, RawStream.entries_prepend, List.singleton_append]
    by_cases hrest : (Lexeme.munch first rest).2 = []
    · rw [hrest, stream_nil]
      exact List.nil_prefix
    · -- the lexeme does not end its text, so it is cut off in the same way whatever stands behind
      have hmunch : Lexeme.munch first (rest ++ suffix) = _ :=
        Lexeme.munch_append_of_not_joins hblank fun hall => absurd hall hrest
      rw [List.cons_append, stream_lexeme hblank (by rw [hmunch]; exact hreading), hmunch,
        RawStream.entries_prepend, List.singleton_append]
      generalize hothers :
        (stream distinguish ⟨(Lexeme.munch first rest).2, _, _⟩).entries = others
      cases others with
      | nil => exact List.nil_prefix
      | cons next others =>
        rw [List.dropLast_cons_cons, List.cons_prefix_cons, ← hothers]
        exact ⟨rfl, ih _ _⟩

/-! ### Layout -/

namespace Layout

variable {widths : Widths} {phase : Phase}

theorem isRaw_of_mem_settleAll :
    ∀ entry ∈ (settleAll widths phase).1.map Prod.fst, entry.isRaw = false := by
  induction widths, phase using settle_induction with
  | settled widths phase hsettle =>
    rw [settleAll_of_none hsettle]
    exact List.forall_mem_nil _
  | due widths phase entry phase' widths' hsettle ih =>
    rw [settleAll_of_some hsettle, List.map_cons, List.forall_mem_cons]
    exact ⟨by simpa [rawEntries] using rawEntries_settle hsettle, ih⟩

/-- Raw entries with what is due behind each of them, while the input has not come to its end. -/
def weave (widths : Widths) : List Entry → List Entry
  | [] => []
  | entry :: raw =>
    entry :: ((settleAll widths (after entry)).1.map Prod.fst ++
      weave (settleAll widths (after entry)).2 raw)

theorem weave_prefix {raw raw' : List Entry} (h : raw <+: raw') (widths : Widths) :
    weave widths raw <+: weave widths raw' := by
  induction raw generalizing raw' widths with
  | nil => exact List.nil_prefix
  | cons entry raw ih =>
    obtain ⟨others, rfl⟩ := h
    rw [List.cons_append, weave, weave, List.cons_prefix_cons, List.prefix_append_right_inj]
    exact ⟨rfl, ih (List.prefix_append raw others) _⟩

theorem arrange_concat (place : Int) (widths : Widths) (raw : List Entry) (last : Entry) :
    ∃ others, (arrange place widths (raw ++ [last])).1.map Prod.fst =
        weave widths raw ++ last :: others ∧
      ∀ entry ∈ others, entry.isRaw = false := by
  induction raw generalizing widths with
  | nil =>
    refine ⟨(settleAll widths (after last)).1.map Prod.fst ++
      (arrange place (settleAll widths (after last)).2 []).1.map Prod.fst, ?_, ?_⟩
    · rw [List.nil_append, arrange_cons, List.map_cons, List.map_append, weave, List.nil_append]
    · rw [arrange, List.forall_mem_append]
      exact ⟨isRaw_of_mem_settleAll, isRaw_of_mem_settleAll⟩
  | cons entry raw ih =>
    obtain ⟨others, harrange, hothers⟩ := ih (settleAll widths (after entry)).2
    refine ⟨others, ?_, hothers⟩
    rw [List.cons_append, arrange_cons, List.map_cons, List.map_append, harrange, weave,
      List.cons_append, List.append_assoc]

end Layout

/-- A run yields the raw entries woven with layout, however it comes to its end. -/
theorem Lexer.weave_prefix_run (lexer : Lexer) :
    Layout.weave lexer.widths lexer.remaining.entries <+: (lexer.run false .tokens).entries := by
  induction lexer using next_induction with
  | failed lexer fault hnext =>
    rw [remaining, Scanner.stream_of_failed hnext]
    exact List.nil_prefix
  | finished lexer hnext =>
    rw [remaining, Scanner.stream_of_finished hnext]
    exact List.nil_prefix
  | entry lexer entry hnext ih =>
    have hseek := pull_tokens lexer
    rw [pullSeek_of_entry hnext] at hseek
    rw [remaining, Scanner.stream_of_entry hnext,
      run_of_entry (congrArg Pull.outcome hseek) (.inl rfl), hseek]
    have hdue := (run_layout lexer.moved (Layout.after_ne_flush entry)).1
    have hothers := ih (Layout.settleAll lexer.widths (Layout.after entry)).2
    refine List.cons_prefix_cons.2 ⟨rfl, ?_⟩
    rw [hdue]
    exact (List.prefix_append_right_inj _).2 hothers

/-! ### What is decided -/

/-- How many entries stand before the last raw one. -/
def decided (entries : List Entry) : Nat :=
  (entries.reverse.dropWhile fun entry => !entry.isRaw).length - 1

theorem decided_of_last {front back : List Entry} {last : Entry} (hlast : last.isRaw = true)
    (hback : ∀ entry ∈ back, entry.isRaw = false) :
    decided (front ++ last :: back) = front.length := by
  have hdrop : back.reverse.dropWhile (fun entry => !entry.isRaw) = [] := by
    simpa using hback
  rw [decided, List.reverse_append, List.reverse_cons, List.append_assoc,
    List.dropWhile_append, hdrop]
  simp [hlast]

theorem decided_of_forall_not_isRaw {entries : List Entry}
    (h : ∀ entry ∈ entries, entry.isRaw = false) : decided entries = 0 := by
  have hdrop : entries.reverse.dropWhile (fun entry => !entry.isRaw) = [] := by
    simpa using h
  rw [decided, hdrop]
  rfl

/-- **What is decided stays.** The entries of a permissive stream before its last raw one are the
first ones that are yielded when anything is put behind the source. -/
theorem decided_append {settings : Settings} {source : String} {file : Option String}
    {entries : List Entry} (hpermissive : settings.isStrict = false)
    (h : lex settings source file = .ok entries) (others : String) :
    (lexRun settings (source ++ others)).entries.take (decided entries) =
      entries.take (decided entries) := by
  obtain ⟨-, hentries⟩ := arrange_of_lex hpermissive h
  obtain hraw | ⟨raw, last, hraw⟩ := List.eq_nil_or_concat' (rawStream settings source).entries
  · rw [hraw] at hentries
    rw [decided_of_forall_not_isRaw, List.take_zero, List.take_zero]
    rw [← hentries]
    exact Layout.isRaw_of_mem_settleAll
  · obtain ⟨back, harrange, hback⟩ :=
      Layout.arrange_concat (Utf8.size source.toList) [] raw last
    rw [hraw, harrange] at hentries
    have hlast : last.isRaw = true :=
      Scanner.isRaw_of_mem_stream (hraw ▸ List.mem_append_right raw (List.mem_singleton_self last))
    have hstays : raw <+: (rawStream settings (source ++ others)).entries := by
      have hscan := Scanner.dropLast_stream_prefix settings.distinguishes source.toList
        others.toList 0 0
      change (rawStream settings source).entries.dropLast <+: _ at hscan
      rwa [hraw, List.dropLast_concat, ← String.toList_append] at hscan
    have hrun : Layout.weave [] raw <+: (lexRun settings (source ++ others)).entries := by
      rw [lexRun, hpermissive]
      exact (Layout.weave_prefix hstays []).trans
        (Lexer.weave_prefix_run (Lexer.ofSettings settings (source ++ others)))
    rw [← hentries, decided_of_last hlast hback, List.take_left]
    exact (List.prefix_iff_eq_take.1 hrun).symm

/-- A mark of one byte that becomes half of an arrow, behind a block, a width that fits none and a
text of one byte for each character. What is put behind is not of one byte for each. -/
theorem decided_append_arrow :
    let source := "a\n  b\n c -"
    let front : List Entry :=
      [.token ⟨.identifier, ⟨0, 1⟩, .text "a"⟩, .token ⟨.newline, ⟨1, 4⟩, .text "\n  "⟩,
        Layout.indentation 4, .token ⟨.identifier, ⟨4, 5⟩, .text "b"⟩,
        .token ⟨.newline, ⟨5, 7⟩, .text "\n "⟩, Layout.deindentation 7,
        Layout.inconsistentDedent 7, .token ⟨.identifier, ⟨7, 8⟩, .text "c"⟩]
    ({} : Settings).isStrict = false ∧
      lex {} source = .ok (front ++ [.error ⟨.unrecognizedToken, ⟨9, 10⟩, "-"⟩]) ∧
      (lexRun {} (source ++ "> é")).entries.take 8 = front ∧
      (lexRun {} (source ++ "> é")).entries.drop 8 =
        [.token ⟨.arrow, ⟨9, 11⟩, .nothing⟩, .error ⟨.unrecognizedToken, ⟨12, 14⟩, "é"⟩] := by
  intro source front
  have hlex : lex {} source = .ok (front ++ [.error ⟨.unrecognizedToken, ⟨9, 10⟩, "-"⟩]) := by
    cbv
  have hstays := decided_append rfl hlex "> é"
  have hdecided : decided (front ++ [.error ⟨.unrecognizedToken, ⟨9, 10⟩, "-"⟩]) = 8 := rfl
  rw [hdecided] at hstays
  exact ⟨rfl, hlex, hstays, by cbv⟩

end Offside
