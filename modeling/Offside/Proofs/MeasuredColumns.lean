import Mathlib
import Offside.Proofs.Appending
import Offside.Proofs.Notes
import Offside.Proofs.ReadingOrder

/-!
# Measured columns

Layout measures a line by the characters of a newline, and locations count those of the source. Both
come to the same: what stands behind a newline starts where the newline ends, and there the column
tells the width of the line. `measured_columns` says so of all that layout puts in behind a newline,
of the widths that are opened there and of the content that follows.
-/

namespace Offside

/-! ### Behind a newline -/

theorem Tiled.stop_of_newline {offset : Nat} {text run : List Char} {entries : List Entry}
    {newline : Token} (h : Tiled offset text entries) (hmem : .token newline ∈ entries)
    (hkind : newline.kind = .newline) (hvalue : newline.value = .text (String.ofList run)) :
    newline.span.stop = newline.span.start + Utf8.size run := by
  obtain ⟨kind, span, value⟩ := newline
  obtain rfl : kind = .newline := hkind
  obtain ⟨before, lexeme, after, -, -, rfl, hspelled⟩ := h.exists_lexeme hmem
  have hlexeme : value = .text (String.ofList lexeme) := hspelled
  rw [← String.ofList_injective (Payload.text.inj (hlexeme.symm.trans hvalue))]
  exact Int.natCast_add _ _

namespace Layout

variable {widths : Widths} {front back raw : List Entry} {mark : Entry} {place : Int}

theorem exists_newline_of_mem_settleAll {entry : Entry}
    (h : mark ∈ (settleAll widths (after entry)).1.map Prod.fst) :
    ∃ newline : Token, entry = .token newline ∧ newline.kind = .newline := by
  unfold after at h
  split at h
  · exact ⟨_, rfl, rfl⟩
  · rw [settleAll_of_none rfl] at h
    cases h

/-- What layout puts in before a raw entry stands behind a newline, with nothing else between. -/
theorem exists_newline_of_arrange (hraw : ∀ entry ∈ raw, entry.isRaw = true)
    (h : (arrange place widths raw).1.map Prod.fst = front ++ mark :: back)
    (hmark : mark.isRaw = false) (hback : ∃ entry ∈ back, entry.isRaw = true) :
    ∃ newline before between, front = before ++ .token newline :: between ∧
      newline.kind = .newline ∧ ∀ entry ∈ between, entry.isRaw = false := by
  induction raw generalizing widths front with
  | nil =>
    obtain ⟨entry, hentry, hisRaw⟩ := hback
    have hmem : entry ∈ (arrange place widths []).1.map Prod.fst := by
      rw [h]
      exact List.mem_append_right _ (List.mem_cons_of_mem _ hentry)
    rw [arrange] at hmem
    rw [isRaw_of_mem_settleAll entry hmem] at hisRaw
    cases hisRaw
  | cons entry raw ih =>
    rw [List.forall_mem_cons] at hraw
    rw [arrange_cons, List.map_cons, List.map_append] at h
    obtain ⟨-, hhead⟩ | ⟨front, rfl, hothers⟩ := List.cons_eq_append_iff.1 h
    · obtain ⟨rfl, -⟩ := List.cons.inj hhead
      rw [hraw.1] at hmark
      cases hmark
    obtain ⟨rest, hdue, -⟩ | ⟨middle, rfl, hlater⟩ := append_eq_append_cons hothers
    · obtain ⟨newline, rfl, hkind⟩ :=
        exists_newline_of_mem_settleAll (hdue ▸ List.mem_append_right front List.mem_cons_self)
      refine ⟨newline, [], front, rfl, hkind, fun other hother => ?_⟩
      exact isRaw_of_mem_settleAll other (hdue ▸ List.mem_append_left _ hother)
    · obtain ⟨newline, before, between, rfl, hkind, hbetween⟩ := ih hraw.2 hlater
      refine ⟨newline, entry :: ((settleAll widths (after entry)).1.map Prod.fst ++ before),
        between, ?_, hkind, hbetween⟩
      rw [List.cons_append, List.append_assoc]

end Layout

section Stream

variable {settings : Settings} {source : String} {file : Option String}
  {front between back rest : List Entry} {newline : Token} {next : Entry}

theorem rawEntries_append_of_forall (h : ∀ entry ∈ between, entry.isRaw = false) :
    rawEntries (between ++ rest) = rawEntries rest := by
  have hnone : rawEntries between = [] :=
    List.filter_eq_nil_iff.2 fun entry hentry hraw => by simp [h entry hentry] at hraw
  rw [rawEntries_append, hnone, List.nil_append]

/-- A newline of a stream is a run of its source. The next raw entry starts where the run ends, and
there is one unless the source ends there. -/
theorem newline_of_lex (hpermissive : settings.isStrict = false)
    (h : lex settings source file = .ok (front ++ .token newline :: rest))
    (hkind : newline.kind = .newline) :
    ∃ before run after, source.toList = before ++ '\n' :: run ++ after ∧
      newline.value = .text (String.ofList ('\n' :: run)) ∧
      newline.span = ⟨Utf8.size before, Utf8.size (before ++ '\n' :: run)⟩ ∧
      (after = [] ∨ ∃ follower others, rawEntries rest = follower :: others ∧
        follower.span.start = newline.span.stop) := by
  have hisRaw : (Entry.token newline).isRaw = true := by rw [Entry.isRaw, hkind]; rfl
  obtain ⟨hfault, hraw⟩ := rawEntries_of_lex hpermissive h
  have hentries : (rawStream settings source).entries =
      rawEntries front ++ .token newline :: rawEntries rest := by
    rw [hraw, rawEntries_append]
    exact congrArg (rawEntries front ++ ·) (List.filter_cons_of_pos hisRaw)
  obtain ⟨before, run, after, position, stop, hsource, -, htail, hvalue, hstop, hsize, hstream⟩ :=
    Scanner.split_newline hkind hentries
  have hwidth := (tiled_of_lex hpermissive h).stop_of_newline
    (List.mem_filter.2 ⟨List.mem_append_right front List.mem_cons_self, hisRaw⟩) hkind hvalue
  rw [hstop, hsize, Nat.zero_add] at hwidth
  have hstart : newline.span.start = Utf8.size before := by
    rw [Utf8.size_append] at hwidth
    omega
  have hspan : newline.span = ⟨Utf8.size before, Utf8.size (before ++ '\n' :: run)⟩ := by
    rw [← hstart, ← Nat.zero_add (Utf8.size _), ← hsize, ← hstop]
  refine ⟨before, run, after, hsource, hvalue, hspan, ?_⟩
  by_cases hend : after = []
  · exact .inl hend
  have hafter : rawEntries rest =
      (Scanner.stream settings.distinguishes ⟨after, position, stop⟩).entries := by
    have hsame := hentries.symm.trans (congrArg RawStream.entries hstream)
    simpa using hsame
  have hcontent : (Scanner.stream settings.distinguishes ⟨after, position, stop⟩).fault = none :=
    (congrArg RawStream.fault hstream).symm.trans hfault
  obtain ⟨follower, others, hnext, -, -, hstart⟩ := Scanner.stream_content htail hend hcontent
  exact .inr ⟨follower, others, hafter.trans hnext, hstart.trans hstop.symm⟩

/-- A newline takes all blanks with it, so what stands behind it starts where it ends. -/
theorem start_behind_newline (hpermissive : settings.isStrict = false)
    (h : lex settings source file = .ok (front ++ .token newline :: (between ++ next :: back)))
    (hkind : newline.kind = .newline) (hbetween : ∀ entry ∈ between, entry.isRaw = false) :
    next.span.start = newline.span.stop := by
  have hsorted := (List.pairwise_append.1 (sorted_of_lex hpermissive h)).2.1
  have hstarts := (List.pairwise_append.1 (starts_sorted hpermissive h)).2.1
  have hmem : next ∈ between ++ next :: back := List.mem_append_right _ List.mem_cons_self
  have hle : newline.span.stop ≤ next.span.start := (List.pairwise_cons.1 hsorted).1 next hmem
  obtain ⟨before, run, after, hsource, -, hspan, rfl | ⟨follower, others, hfollower, hstart⟩⟩ :=
    newline_of_lex hpermissive h hkind
  · have hwithin := within_of_lex h next
      (List.mem_append_right _ (List.mem_cons_of_mem _ hmem))
    have hstop := hwithin.start_le_stop.trans hwithin.stop_le
    rw [hsource, List.append_nil] at hstop
    rw [hspan] at hle ⊢
    exact le_antisymm hstop hle
  · rw [rawEntries_append_of_forall hbetween] at hfollower
    have hlater : follower ∈ next :: back :=
      List.mem_of_mem_filter (hfollower ▸ List.mem_cons_self)
    have hfirst := (List.pairwise_append.1 (List.pairwise_cons.1 hstarts).2).2.1
    refine le_antisymm ?_ hle
    rw [← hstart]
    obtain rfl | hback := List.mem_cons.1 hlater
    · exact le_rfl
    · exact ((List.pairwise_cons.1 hfirst).1 follower hback).1

theorem location_behind_newline (hpermissive : settings.isStrict = false)
    (h : lex settings source file = .ok (front ++ .token newline :: (between ++ next :: back)))
    (hkind : newline.kind = .newline) (hbetween : ∀ entry ∈ between, entry.isRaw = false)
    (shown : Option String) :
    (Location.ofSpan source next.span shown).column = 1 + Layout.lineWidth newline.value ∧
      (Location.ofSpan source next.span shown).line =
        (Location.ofSpan source newline.span shown).line +
          newline.value.plain.toList.count '\n' := by
  have hstart := start_behind_newline hpermissive h hkind hbetween
  obtain ⟨before, run, after, hsource, hvalue, hspan, -⟩ := newline_of_lex hpermissive h hkind
  have hbefore : before <+: source.toList := ⟨'\n' :: run ++ after, by simp [hsource]⟩
  have hrun : before ++ '\n' :: run <+: source.toList := ⟨after, hsource.symm⟩
  rw [hspan] at hstart
  rw [Location.ofSpan, Location.ofSpan, hstart, hspan, Location.ofOffset_size hbefore,
    Location.ofOffset_size hrun, hvalue, Layout.lineWidth_text, Payload.plain, String.toList_ofList,
    lastLine_append_newline]
  refine ⟨add_comm _ _, ?_⟩
  rw [lineNumber, lineNumber, List.count_append]
  push_cast
  ring

theorem start_behind_layout {mark : Entry} (hpermissive : settings.isStrict = false)
    (h : lex settings source file = .ok (front ++ mark :: (between ++ next :: back)))
    (hmark : mark.isRaw = false) (hbetween : ∀ entry ∈ between, entry.isRaw = false)
    (hnext : next.isRaw = true) : next.span.start = mark.span.start := by
  obtain ⟨-, harranged⟩ := arrange_of_lex hpermissive h
  obtain ⟨newline, before, closings, rfl, hnewline, hclosings⟩ :=
    Layout.exists_newline_of_arrange (fun _ => Scanner.isRaw_of_mem_stream) harranged hmark
      ⟨next, List.mem_append_right _ List.mem_cons_self, hnext⟩
  have hnearer : lex settings source file =
      .ok (before ++ .token newline :: (closings ++ mark :: (between ++ next :: back))) := by
    rw [h, List.append_assoc, List.cons_append]
  have hfarther : lex settings source file =
      .ok (before ++ .token newline :: ((closings ++ mark :: between) ++ next :: back)) := by
    rw [hnearer, List.append_assoc, List.cons_append]
  have hall : ∀ entry ∈ closings ++ mark :: between, entry.isRaw = false :=
    List.forall_mem_append.2 ⟨hclosings, List.forall_mem_cons.2 ⟨hmark, hbetween⟩⟩
  rw [start_behind_newline hpermissive hnearer hnewline hclosings,
    start_behind_newline hpermissive hfarther hnewline hall]

end Stream

/-! ### Pulling up to an entry -/

namespace Lexer

theorem Pulls.opened {lexer lexer' : Lexer} {iterator iterator' : Iterator} {opening : Token}
    (h : lexer.Pulls iterator (.entry (.token opening)) iterator' lexer')
    (hkind : opening.kind = .indentation) :
    ∃ width place, iterator = .layout (.compare width place) ∧
      lexer'.widths = width :: lexer.widths := by
  have hmeasured : (Entry.token opening).IsMeasured := hkind
  have hnot := hmeasured.isRaw
  generalize houtcome : Outcome.entry (.token opening) = outcome at h
  induction h with
  | raw next | seek _ _ next =>
    obtain rfl := Outcome.entry.inj houtcome
    rw [Scanner.isRaw_of_next next] at hnot
    cases hnot
  | @due lexer phase _ _ _ settle =>
    obtain rfl := Outcome.entry.inj houtcome
    cases phase with
    | seek => cases settle
    | compare width place =>
      rw [Layout.settle] at settle
      split_ifs at settle <;> cases settle
      · exact ⟨width, place, rfl, rfl⟩
      · cases hkind
    | close width place =>
      rw [Layout.settle] at settle
      split_ifs at settle <;> cases settle
      cases hkind
    | flush place =>
      rw [Layout.settle] at settle
      split_ifs at settle
      cases settle
      cases hkind
  | seekEnd _ _ _ _ ih =>
    obtain ⟨width, place, hphase, -⟩ := ih houtcome
    cases hphase
  | _ => cases houtcome

end Lexer

/-- The pull that yields an indentation opens the width of the line behind the last newline. -/
theorem opened_of_lex {settings : Settings} {source : String} {file : Option String}
    {front back : List Entry} {opening : Token} (hpermissive : settings.isStrict = false)
    (h : lex settings source file = .ok (front ++ .token opening :: back))
    (hkind : opening.kind = .indentation) :
    let pulled (count : Nat) := Sharing.after { lexer := Lexer.ofSettings settings source file }
      (.tokens :: List.replicate count (.pull 0))
    ∃ newline before between, front = before ++ .token newline :: between ∧
      newline.kind = .newline ∧ (∀ entry ∈ between, entry.isRaw = false) ∧
      (pulled front.length).yielded = front ∧
      (pulled (front.length + 1)).yielded = front ++ [.token opening] ∧
      (pulled (front.length + 1)).lexer.widths =
        Layout.lineWidth newline.value :: (pulled front.length).lexer.widths := by
  intro pulled
  obtain ⟨lexer, iterator, -, -, hmeasures, houtcome, hpulled, -⟩ :=
    @Lexer.exists_pull_run (Lexer.ofSettings settings source file) .tokens [] []
      (Iterator.measures_tokens []) _ _ _ (run_of_lex hpermissive h).1
  have hbefore : pulled front.length = { lexer, iterators := [iterator], yielded := front } :=
    hpulled
  have hafter : pulled (front.length + 1) =
      { lexer := (lexer.pull iterator).lexer, iterators := [(lexer.pull iterator).iterator],
        yielded := front ++ [.token opening] } :=
    Sharing.after_pulls hpulled houtcome
  have hpulls := lexer.pulls_pull iterator
  rw [houtcome] at hpulls
  obtain ⟨width, place, rfl, hopened⟩ := hpulls.opened hkind
  obtain ⟨newline, _, -, rfl, hbehind⟩ := hmeasures width rfl
  obtain ⟨before, closings, hfront, hclosings⟩ := hbehind.stands
  rw [hbefore, hafter]
  exact ⟨newline, before, closings, hfront, hbehind.kind,
    fun closing hclosing => (hclosings closing hclosing).isRaw, rfl, rfl, hopened⟩

/-- **Measured columns.** What stands behind a newline, with nothing but layout between, has the
column that the newline measures, on the line where the newline ends. The width that an indentation
opens is told by its column, and content stands at the place of the layout in front of it. -/
theorem measured_columns {settings : Settings} {source : String} {file : Option String}
    {entries : List Entry} (hpermissive : settings.isStrict = false)
    (h : lex settings source file = .ok entries) (shown : Option String) :
    let location (entry : Entry) := Location.ofSpan source entry.span shown
    let pulled (count : Nat) := Sharing.after { lexer := Lexer.ofSettings settings source file }
      (.tokens :: List.replicate count (.pull 0))
    (∀ front newline between mark back,
      entries = front ++ .token newline :: (between ++ mark :: back) →
      newline.kind = .newline → (∀ entry ∈ between, entry.isRaw = false) →
      (location mark).column = 1 + Layout.lineWidth newline.value ∧
        (location mark).line =
          (location (.token newline)).line + newline.value.plain.toList.count '\n') ∧
    (∀ front opening back, entries = front ++ .token opening :: back →
      opening.kind = .indentation →
      (pulled front.length).yielded = front ∧
        (pulled (front.length + 1)).yielded = front ++ [.token opening] ∧
        ∃ width : Nat, (location (.token opening)).column = 1 + width ∧
          (pulled (front.length + 1)).lexer.widths.levels =
            (pulled front.length).lexer.widths.levels ++ [width]) ∧
    (∀ front mark between next back, entries = front ++ mark :: (between ++ next :: back) →
      mark.isRaw = false → (∀ entry ∈ between, entry.isRaw = false) → next.isRaw = true →
      (location next).line = (location mark).line ∧
        (location next).column = (location mark).column) := by
  intro location pulled
  refine ⟨?_, ?_, ?_⟩
  · rintro front newline between mark back rfl hkind hbetween
    exact location_behind_newline hpermissive h hkind hbetween shown
  · rintro front opening back rfl hkind
    obtain ⟨newline, before, between, hfront, hnewline, hbetween, hyielded, hlast, hopened⟩ :=
      opened_of_lex hpermissive h hkind
    refine ⟨hyielded, hlast, Layout.lineWidth newline.value, ?_, ?_⟩
    · rw [hfront, List.append_assoc, List.cons_append] at h
      exact (location_behind_newline hpermissive h hnewline hbetween shown).1
    · rw [← Widths.levels_cons]
      exact congrArg Widths.levels hopened
  · rintro front mark between next back rfl hmark hbetween hnext
    have hstart := start_behind_layout hpermissive h hmark hbetween hnext
    simp only [location, Location.ofSpan, hstart, and_self]

/-- A run with an empty line and a tab behind a character of two bytes, and a width that fits no
block. -/
theorem measured_columns_blank_line :
    let source := "é\n\n\t b\n c"
    let first : List Entry := [.error { kind := .unrecognizedToken, span := ⟨0, 2⟩, text := "é" }]
    let newline : Token := ⟨.newline, ⟨2, 6⟩, .text "\n\n\t "⟩
    let opening : Token := { kind := .indentation, span := .point 6 }
    let block : List Entry :=
      [.token ⟨.identifier, ⟨6, 7⟩, .text "b"⟩, .token ⟨.newline, ⟨7, 9⟩, .text "\n "⟩,
        Layout.deindentation 9]
    let next : Entry := .token ⟨.identifier, ⟨9, 10⟩, .text "c"⟩
    let location (entry : Entry) := Location.ofSpan source entry.span none
    ({} : Settings).isStrict = false ∧
      lex {} source = .ok (first ++ .token newline :: .token opening :: (block ++
        [Layout.inconsistentDedent 9, next])) ∧
      Layout.lineWidth newline.value = 2 ∧
      (location (.token opening)).column = 1 + 2 ∧ (location (.token opening)).line = 1 + 2 ∧
      (location next).line = (location (Layout.inconsistentDedent 9)).line ∧
      (location next).column = (location (Layout.inconsistentDedent 9)).column ∧
      ∃ width : Nat, (location (.token opening)).column = 1 + width ∧
        (Sharing.after { lexer := Lexer.ofSettings {} source }
          (.tokens :: List.replicate 3 (.pull 0))).lexer.widths.levels =
        (Sharing.after { lexer := Lexer.ofSettings {} source }
          (.tokens :: List.replicate 2 (.pull 0))).lexer.widths.levels ++ [width] := by
  intro source first newline opening block next location
  have hlex : lex {} source = .ok (first ++ .token newline :: .token opening :: (block ++
      [Layout.inconsistentDedent 9, next])) := by cbv
  have hwidth : Layout.lineWidth newline.value = 2 := by decide
  have hcount : newline.value.plain.toList.count '\n' = 2 := by decide
  have hline : (location (.token newline)).line = 1 := by cbv
  obtain ⟨hmeasured, hopened, hcontent⟩ := measured_columns rfl hlex none
  obtain ⟨hcolumn, hlines⟩ := hmeasured first newline [] (.token opening) _ rfl rfl
    (List.forall_mem_nil _)
  obtain ⟨-, -, hlevels⟩ := hopened (first ++ [.token newline]) opening _ rfl rfl
  obtain ⟨hsameLine, hsameColumn⟩ := hcontent
    (first ++ .token newline :: .token opening :: block) (Layout.inconsistentDedent 9) [] next []
    rfl rfl (List.forall_mem_nil _) rfl
  rw [hwidth] at hcolumn
  exact ⟨rfl, hlex, hwidth, hcolumn, hlines.trans (by rw [hline, hcount]; rfl), hsameLine,
    hsameColumn, hlevels⟩

end Offside
