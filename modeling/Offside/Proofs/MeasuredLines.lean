import Mathlib
import Offside.Proofs.Arrangement
import Offside.Proofs.RawEntries
import Offside.Proofs.Readings

/-!
# Measured lines

A line is measured behind its newline, and what its width gives rise to is put in there: the opening
of a block, or the report of a width that fits no block. On a line with content the content follows.
But a source that ends in a line of blanks has that line measured, too, and nothing follows:
`measured_lines` gives the exact condition.
-/

namespace Offside

/-- A text whose last line is not its first one and consists of blanks, at least one. -/
def EndsBlank (text : List Char) : Prop :=
  ∃ before blanks, text = before ++ '\n' :: blanks ∧ blanks ≠ [] ∧ ∀ c ∈ blanks, isBlank c = true

namespace Entry

/-- An entry that the width of a line gives rise to, the closing of blocks aside. -/
def IsMeasured : Entry → Prop
  | .token t => t.kind = .indentation
  | .error e => e.kind = .inconsistentDedent

def IsClosing : Entry → Prop
  | .token t => t.kind = .deindentation
  | .error _ => False

variable {entry : Entry}

theorem IsMeasured.isRaw (h : entry.IsMeasured) : entry.isRaw = false := by
  cases entry with
  | token t =>
    have hkind : t.kind = .indentation := h
    simp [Entry.isRaw, hkind, TokenKind.isSynthetic]
  | error e =>
    have hkind : e.kind = .inconsistentDedent := h
    simp [Entry.isRaw, hkind]

theorem IsClosing.isRaw (h : entry.IsClosing) : entry.isRaw = false := by
  cases entry with
  | token t =>
    have hkind : t.kind = .deindentation := h
    simp [Entry.isRaw, hkind, TokenKind.isSynthetic]
  | error e => cases h

theorem IsClosing.not_isMeasured (h : entry.IsClosing) : ¬entry.IsMeasured := by
  intro hmeasured
  cases entry with
  | token t => cases h.symm.trans hmeasured
  | error e => cases h

end Entry

/-! ### Layout -/

def Phase.width? : Phase → Option Nat
  | .compare width _ => some width
  | .close width _ => some width
  | _ => none

namespace Layout

variable {widths widths' : Widths} {phase phase' : Phase} {entry mark : Entry}
  {front back : List Entry}

theorem settle_isClosing_or_isMeasured
    (h : settle widths phase = some (entry, phase', widths')) :
    entry.IsClosing ∧ phase'.width? = phase.width? ∧ phase'.place? = phase.place? ∨
      entry.IsMeasured ∧ phase' = .seek ∧ (∃ width ∈ phase.width?, 0 < width) ∧
        ∃ place ∈ phase.place?, entry.span = .point place := by
  cases phase with
  | seek => cases h
  | compare width place =>
    rw [settle] at h
    split_ifs at h with hopen
    · cases h
      exact .inr ⟨rfl, rfl, ⟨width, rfl, Nat.zero_lt_of_lt hopen⟩, place, rfl, rfl⟩
    · cases h
      exact .inl ⟨rfl, rfl, rfl⟩
  | close width place =>
    rw [settle] at h
    split_ifs at h with hclose hreport
    · cases h
      exact .inl ⟨rfl, rfl, rfl⟩
    · cases h
      exact .inr ⟨rfl, rfl, ⟨width, rfl, Nat.zero_lt_of_lt hreport⟩, place, rfl, rfl⟩
  | flush place =>
    rw [settle] at h
    split_ifs at h
    cases h
    exact .inl ⟨rfl, rfl, rfl⟩

/-- What is due behind a newline ends with the measured entry, if there is one. -/
theorem settleAll_split (h : (settleAll widths phase).1.map Prod.fst = front ++ mark :: back)
    (hmark : mark.IsMeasured) :
    (∀ closing ∈ front, closing.IsClosing) ∧ back = [] ∧ (∃ width ∈ phase.width?, 0 < width) ∧
      ∃ place ∈ phase.place?, mark.span = .point place := by
  induction widths, phase using settle_induction generalizing front with
  | settled widths phase hsettle =>
    rw [settleAll_of_none hsettle] at h
    simp at h
  | due widths phase entry phase' widths' hsettle ih =>
    rw [settleAll_of_some hsettle, List.map_cons] at h
    obtain ⟨rfl, hhead⟩ | ⟨front, rfl, hothers⟩ := List.cons_eq_append_iff.1 h
    · obtain ⟨rfl, rfl⟩ := List.cons.inj hhead
      obtain ⟨hclosing, -⟩ | ⟨-, rfl, hwidth, hplace⟩ := settle_isClosing_or_isMeasured hsettle
      · exact absurd hmark hclosing.not_isMeasured
      · rw [settleAll_of_none rfl]
        exact ⟨List.forall_mem_nil _, rfl, hwidth, hplace⟩
    · obtain ⟨hclosing, hwidth, hplace⟩ | ⟨-, rfl, -⟩ := settle_isClosing_or_isMeasured hsettle
      · obtain ⟨hfront, hback, hmeasured⟩ := ih hothers
        rw [hwidth, hplace] at hmeasured
        exact ⟨List.forall_mem_cons.2 ⟨hclosing, hfront⟩, hback, hmeasured⟩
      · rw [settleAll_of_none rfl] at hothers
        simp at hothers

theorem isClosing_of_mem_flush (widths : Widths) (place : Int) :
    ∀ entry ∈ (settleAll widths (.flush place)).1.map Prod.fst, entry.IsClosing := by
  induction widths with
  | nil =>
    rw [settleAll_of_none rfl]
    exact List.forall_mem_nil _
  | cons width widths ih =>
    have hsettle : settle (width :: widths) (.flush place) =
        some (deindentation place, .flush place, widths) := rfl
    rw [settleAll_of_some hsettle]
    exact List.forall_mem_cons.2 ⟨rfl, ih⟩

/-- A measured entry stands behind the newline in front of its line, with nothing between them but
the blocks that are closed there. -/
structure Behind (newline : Token) (front : List Entry) (mark : Entry) : Prop where
  kind : newline.kind = .newline
  stands : ∃ before closings, front = before ++ .token newline :: closings ∧
    ∀ closing ∈ closings, closing.IsClosing
  place : mark.span = .point newline.span.stop

theorem Behind.append {newline : Token} (h : Behind newline front mark) (more : List Entry) :
    Behind newline (more ++ front) mark := by
  obtain ⟨before, closings, rfl, hclosings⟩ := h.stands
  exact ⟨h.kind, ⟨more ++ before, closings, (List.append_assoc ..).symm, hclosings⟩, h.place⟩

theorem exists_newline_of_mem_width? {width : Nat} (h : width ∈ (after entry).width?) :
    ∃ newline : Token, entry = .token newline ∧ newline.kind = .newline ∧
      lineWidth newline.value = width ∧ (after entry).place? = some newline.span.stop := by
  unfold after at h ⊢
  split at h
  · exact ⟨_, rfl, rfl, Option.some.inj h, rfl⟩
  · cases h

theorem append_eq_append_cons {α : Type} {first second front back : List α} {a : α}
    (h : first ++ second = front ++ a :: back) :
    (∃ rest, first = front ++ a :: rest ∧ back = rest ++ second) ∨
      ∃ middle, front = first ++ middle ∧ second = middle ++ a :: back := by
  obtain ⟨middle, hfront, hsecond⟩ | ⟨middle, hfirst, hmiddle⟩ := List.append_eq_append_iff.1 h
  · exact .inr ⟨middle, hfront, hsecond⟩
  · obtain ⟨rfl, hsecond⟩ | ⟨rest, rfl, hback⟩ := List.cons_eq_append_iff.1 hmiddle
    · exact .inr ⟨[], by rw [hfirst, List.append_nil, List.append_nil], hsecond⟩
    · exact .inl ⟨rest, hfirst, hback⟩

/-- A measured entry comes from a newline of the raw stream that is followed by a line of some
width, and behind it the rest of the raw stream is arranged. -/
theorem arrange_split {raw : List Entry} {place : Int} (hraw : ∀ entry ∈ raw, entry.isRaw = true)
    (h : (arrange place widths raw).1.map Prod.fst = front ++ mark :: back)
    (hmark : mark.IsMeasured) :
    ∃ newline rawBefore rawAfter widths', raw = rawBefore ++ .token newline :: rawAfter ∧
      Behind newline front mark ∧ 0 < lineWidth newline.value ∧
      back = (arrange place widths' rawAfter).1.map Prod.fst := by
  induction raw generalizing widths front with
  | nil =>
    have hclosing := isClosing_of_mem_flush widths place mark
    rw [arrange] at h
    rw [h] at hclosing
    exact absurd hmark (hclosing (by simp)).not_isMeasured
  | cons entry raw ih =>
    rw [List.forall_mem_cons] at hraw
    rw [arrange_cons, List.map_cons, List.map_append] at h
    obtain ⟨-, hhead⟩ | ⟨front, rfl, hothers⟩ := List.cons_eq_append_iff.1 h
    · obtain ⟨rfl, -⟩ := List.cons.inj hhead
      exact absurd hraw.1 (by simp [hmark.isRaw])
    obtain ⟨rest, hdue, rfl⟩ | ⟨middle, rfl, hlater⟩ := append_eq_append_cons hothers
    · obtain ⟨hclosings, rfl, ⟨width, hwidth, hpos⟩, position, hposition, hmark⟩ :=
        settleAll_split hdue hmark
      obtain ⟨newline, rfl, hkind, rfl, hplace⟩ := exists_newline_of_mem_width? hwidth
      obtain rfl := Option.some.inj (hplace.symm.trans hposition)
      exact ⟨newline, [], raw, _, rfl, ⟨hkind, ⟨[], front, rfl, hclosings⟩, hmark⟩, hpos, rfl⟩
    · obtain ⟨newline, rawBefore, rawAfter, widths', rfl, hbehind, hpos, hback⟩ := ih hraw.2 hlater
      refine ⟨newline, entry :: rawBefore, rawAfter, widths', rfl, ?_, hpos, hback⟩
      rw [← List.cons_append]
      exact hbehind.append _

end Layout

/-! ### Scanning -/

namespace Scanner

variable {distinguish : Bool} {text : List Char} {position offset : Nat} {before after : List Entry}

theorem isRaw_of_mem_stream {entry : Entry}
    (h : entry ∈ (stream distinguish ⟨text, position, offset⟩).entries) : entry.isRaw = true := by
  obtain ⟨before, after, hsplit⟩ := List.append_of_mem h
  obtain ⟨front, first, rest, reading, position', start, -, -, hreading, -, rfl, -⟩ :=
    split_stream hsplit
  exact (Lexeme.spelled_of_classify hreading _).isRaw

/-- A newline of a stream is a run of newlines and blanks, all of it, and the stream goes on behind
the run. -/
theorem split_newline {newline : Token} (hkind : newline.kind = .newline)
    (h : (stream distinguish ⟨text, position, offset⟩).entries =
      before ++ .token newline :: after) :
    ∃ front run tail position' stop, text = front ++ '\n' :: run ++ tail ∧
      (∀ c ∈ run, isLayout c = true) ∧ (∀ c ∈ tail.head?, isLayout c = false) ∧
      newline.value = .text (String.ofList ('\n' :: run)) ∧ newline.span.stop = (stop : Nat) ∧
      stop = offset + Utf8.size (front ++ '\n' :: run) ∧
      stream distinguish ⟨text, position, offset⟩ =
        (stream distinguish ⟨tail, position', stop⟩).prepend (before ++ [.token newline]) := by
  obtain ⟨kind, span, value⟩ := newline
  obtain rfl : kind = .newline := hkind
  obtain ⟨front, first, rest, reading, position', start, htext, hblank, hreading, hstart, hentry,
    hstream⟩ := split_stream h
  have hvalue : reading = .token .newline value := by
    rw [← reading.reading_entry, ← hentry]
    rfl
  have hfirst : first = '\n' := by
    by_contra hfirst
    exact ne_newline_of_classify hfirst hreading value hvalue
  subst hfirst
  rw [Lexeme.munch_newline] at hreading hentry hstream
  refine ⟨front, rest.takeWhile isLayout, rest.dropWhile isLayout, position', _, ?_,
    fun c hc => List.mem_takeWhile_imp hc, fun c hc => eq_false_of_mem_head?_dropWhile hc, ?_, ?_,
    ?_, hstream⟩
  · rw [htext, List.append_assoc, List.cons_append, List.takeWhile_append_dropWhile]
  · rw [hvalue] at hreading
    cases hreading
    rfl
  · have hspan := congrArg Entry.span hentry
    rw [Lexeme.span_entry] at hspan
    exact congrArg Span.stop hspan
  · rw [hstart, Utf8.size_append, Nat.add_assoc]

theorem stream_content (hhead : ∀ c ∈ text.head?, isLayout c = false) (hne : text ≠ [])
    (hfault : (stream distinguish ⟨text, position, offset⟩).fault = none) :
    ∃ next rest, (stream distinguish ⟨text, position, offset⟩).entries = next :: rest ∧
      next.isRaw = true ∧ (∀ value, next.reading ≠ .token .newline value) ∧
      next.span.start = offset := by
  obtain ⟨first, rest, rfl⟩ := List.exists_cons_of_ne_nil hne
  obtain ⟨hblank, hfirst⟩ := isLayout_eq_false_iff.1 (hhead first rfl)
  cases hreading : Lexeme.classify distinguish first (Lexeme.munch first rest).1 with
  | error fault =>
    rw [stream_fault hblank hreading] at hfault
    cases hfault
  | ok reading =>
    rw [stream_lexeme hblank hreading]
    refine ⟨_, _, rfl, (Lexeme.spelled_of_classify hreading _).isRaw, fun value => ?_, ?_⟩
    · rw [Lexeme.Reading.reading_entry]
      exact ne_newline_of_classify hfirst hreading value
    · rw [Lexeme.span_entry]

end Scanner

theorem endsBlank_of_lineWidth {run : List Char} (hrun : ∀ c ∈ run, isLayout c = true)
    (hwidth : 0 < Layout.lineWidth (.text (String.ofList ('\n' :: run)))) (front : List Char) :
    EndsBlank (front ++ '\n' :: run) := by
  have hmem : '\n' ∈ '\n' :: run := List.mem_cons_self
  obtain ⟨before, line, hsplit, hline⟩ := exists_lastLine hmem
  rw [Layout.lineWidth_text, String.toList_ofList, hsplit, lastLine_append hline]
    at hwidth
  have hlayout : ∀ c ∈ '\n' :: run, isLayout c = true := List.forall_mem_cons.2 ⟨rfl, hrun⟩
  rw [hsplit] at hlayout ⊢
  refine ⟨front ++ before, line, (List.append_assoc ..).symm, List.length_pos_iff.1 hwidth, ?_⟩
  intro c hc
  refine isBlank_of_isLayout (hlayout c (by simp [hc])) ?_
  rintro rfl
  exact hline hc

/-! ### Sources -/

/-- The line that an entry was measured on begins behind it, with an entry on its first
character. -/
def Content (mark : Entry) (back : List Entry) : Prop :=
  ∃ next rest, back = next :: rest ∧ next.isRaw = true ∧
    (∀ value, next.reading ≠ .token .newline value) ∧ next.span.start = mark.span.start

/-- The last line of a source consists of blanks, and the entry stands behind it. -/
def AtBlankEnd (source : String) (mark : Entry) : Prop :=
  EndsBlank source.toList ∧ mark.span.start = Utf8.size source.toList

theorem arrange_of_lex {settings : Settings} {source : String} {file : Option String}
    {entries : List Entry} (hpermissive : settings.isStrict = false)
    (h : lex settings source file = .ok entries) :
    (rawStream settings source).fault = none ∧
      (Layout.arrange (Utf8.size source.toList) [] (rawStream settings source).entries).1.map
        Prod.fst = entries := by
  rw [lex_eq_arrange hpermissive] at h
  cases hfault : (rawStream settings source).fault with
  | some fault =>
    rw [hfault] at h
    cases h
  | none =>
    rw [hfault] at h
    exact ⟨rfl, Except.ok.inj h⟩

/-- **Measured lines.** In a permissive stream what the width of a line gives rise to stands behind
the newline in front of the line. There the content of the line follows, unless the line is the last
one of the source and consists of blanks: then nothing follows but the closing of blocks. -/
theorem measured_lines {settings : Settings} {source : String} {file : Option String}
    {entries front back : List Entry} {mark : Entry} (hpermissive : settings.isStrict = false)
    (h : lex settings source file = .ok entries) (hentries : entries = front ++ mark :: back)
    (hmark : mark.IsMeasured) :
    (∃ newline, Layout.Behind newline front mark) ∧
      (AtBlankEnd source mark ∧ (∀ closing ∈ back, closing.IsClosing) ∨
        ¬AtBlankEnd source mark ∧ Content mark back) := by
  obtain ⟨hfault, harranged⟩ := arrange_of_lex hpermissive h
  have hraw : ∀ entry ∈ (rawStream settings source).entries, entry.isRaw = true :=
    fun entry hentry => Scanner.isRaw_of_mem_stream hentry
  obtain ⟨newline, before, after, widths, hsplit, hbehind, hwidth, rfl⟩ :=
    Layout.arrange_split hraw (harranged.trans hentries) hmark
  refine ⟨⟨newline, hbehind⟩, ?_⟩
  obtain ⟨init, run, tail, position, stop, htext, hrun, htail, hvalue, hspan, hstop, hstream⟩ :=
    Scanner.split_newline hbehind.kind hsplit
  have hplace : mark.span.start = stop := by
    rw [hbehind.place]
    exact hspan
  have hsize : Utf8.size source.toList = stop + Utf8.size tail := by
    rw [htext, Utf8.size_append, hstop, Nat.zero_add]
  have hafter : after = (Scanner.stream settings.distinguishes ⟨tail, position, stop⟩).entries := by
    have hentries := hsplit.symm.trans (congrArg RawStream.entries hstream)
    simpa using hentries
  by_cases hend : tail = []
  · subst hend
    rw [List.append_nil] at htext
    rw [hvalue] at hwidth
    refine .inl ⟨⟨?_, ?_⟩, ?_⟩
    · rw [htext]
      exact endsBlank_of_lineWidth hrun hwidth init
    · rw [hplace, hsize]
      rfl
    · rw [hafter, Scanner.stream_nil]
      exact Layout.isClosing_of_mem_flush widths _
  · refine .inr ⟨fun hblank => ?_, ?_⟩
    · have hpos := Utf8.size_pos hend
      have hstart := hblank.2
      rw [hplace, hsize] at hstart
      omega
    · have hcontent : (Scanner.stream settings.distinguishes ⟨tail, position, stop⟩).fault = none :=
        (congrArg RawStream.fault hstream).symm.trans hfault
      obtain ⟨next, others, hnext, hisRaw, hreading, hstart⟩ :=
        Scanner.stream_content htail hend hcontent
      rw [hafter, hnext, Layout.arrange_cons]
      exact ⟨next, _, rfl, hisRaw, hreading, hstart.trans hplace.symm⟩

/-- A block that is opened for a line with content, and a width that is reported behind the last
line, on which there is none. -/
theorem measured_lines_blank_end :
    let source := "f\n  g\n "
    let opened : List Entry :=
      [.token ⟨.identifier, ⟨0, 1⟩, .text "f"⟩, .token ⟨.newline, ⟨1, 4⟩, .text "\n  "⟩]
    let others : List Entry :=
      [.token ⟨.identifier, ⟨4, 5⟩, .text "g"⟩, .token ⟨.newline, ⟨5, 7⟩, .text "\n "⟩,
        Layout.deindentation 7]
    ({} : Settings).isStrict = false ∧ (Layout.indentation 4).IsMeasured ∧
      (Layout.inconsistentDedent 7).IsMeasured ∧
      lex {} source = .ok (opened ++ Layout.indentation 4 :: others ++
        [Layout.inconsistentDedent 7]) ∧
      (∃ newline, Layout.Behind newline opened (Layout.indentation 4)) ∧
      ¬AtBlankEnd source (Layout.indentation 4) ∧
      Content (Layout.indentation 4) (others ++ [Layout.inconsistentDedent 7]) ∧
      AtBlankEnd source (Layout.inconsistentDedent 7) := by
  intro source opened others
  have hlex : lex {} source = .ok (opened ++ Layout.indentation 4 :: others ++
      [Layout.inconsistentDedent 7]) := by cbv
  have hsize : Utf8.size source.toList = 7 := by decide
  have hcontent : ¬AtBlankEnd source (Layout.indentation 4) := by
    intro hblank
    have hstart : (4 : Int) = Utf8.size source.toList := hblank.2
    rw [hsize] at hstart
    exact absurd hstart (by decide)
  have hend : AtBlankEnd source (Layout.inconsistentDedent 7) := by
    refine ⟨⟨"f\n  g".toList, [' '], by decide, by decide, by simp [isBlank]⟩, ?_⟩
    rw [hsize]
    rfl
  obtain ⟨hbehind, ⟨hblank, -⟩ | ⟨-, hfollows⟩⟩ :=
    measured_lines rfl hlex (List.append_assoc opened _ _) rfl
  · exact absurd hblank hcontent
  · exact ⟨rfl, rfl, rfl, hlex, hbehind, hcontent, hfollows, hend⟩

/-- A line of blanks at the end of a source opens a block on which nothing follows. -/
theorem not_forall_isMeasured_followed :
    ¬∀ (settings : Settings) (source : String) (file : Option String)
        (front back : List Entry) (mark : Entry), settings.isStrict = false →
      lex settings source file = .ok (front ++ mark :: back) → mark.IsMeasured →
        ∃ next rest, back = next :: rest ∧ next.isRaw = true := by
  intro h
  have hlex : lex {} "a\n  " none =
      .ok ([.token ⟨.identifier, ⟨0, 1⟩, .text "a"⟩, .token ⟨.newline, ⟨1, 4⟩, .text "\n  "⟩] ++
        Layout.indentation 4 :: [Layout.deindentation 4]) := by cbv
  obtain ⟨next, rest, hback, hraw⟩ := h {} "a\n  " none _ _ _ rfl hlex rfl
  obtain ⟨rfl, -⟩ := List.cons.inj hback
  cases hraw

end Offside
