import Mathlib
import Offside.Proofs.Places
import Offside.Proofs.Seams

/-!
# Concatenation

A scanner keeps nothing in mind from one entry to the next and looks ahead only as far as a lexeme
may reach. So the scan of two texts put together is the scan of the one and then, moved, the scan of
the other, unless a lexeme reaches over the seam, and then it never is: `scan_append`. A bad
character joins with nothing, and so it parts what stands around it.
-/

namespace Offside

/-! ### Joined parts -/

namespace Joins

variable {front back after : List Char}

theorem of_cons_blank {first : Char} {rest : List Char} (hblank : isBlank first = true)
    (h : Joins (first :: rest) after) : Joins rest after := by
  generalize htext : first :: rest = text at h
  cases h with
  | pair bonds =>
    obtain ⟨-, htext⟩ | ⟨before, -, rfl⟩ := List.cons_eq_append_iff.1 htext
    · obtain ⟨rfl, -⟩ := List.cons.inj htext
      have hlayout := isLayout_of_isBlank hblank
      obtain ⟨hletter, -⟩ | ⟨hdigit, -⟩ | ⟨rfl, -⟩ := bonds
      · rw [isLetter_of_isLayout hlayout] at hletter
        cases hletter
      · rw [isDigit_of_isLayout hlayout] at hdigit
        cases hdigit
      · cases hblank
    · exact .pair bonds
  | newlines blank next =>
    obtain ⟨-, htext⟩ | ⟨before, -, rfl⟩ := List.cons_eq_append_iff.1 htext
    · obtain ⟨rfl, -⟩ := List.cons.inj htext
      cases hblank
    · exact .newlines blank next

theorem append_cases (h : Joins (front ++ back) after) (hne : back ≠ []) :
    Joins back after ∨ Joins front back := by
  generalize htext : front ++ back = text at h
  cases h with
  | pair bonds =>
    obtain ⟨init, last, rfl⟩ := (List.eq_nil_or_concat' back).resolve_left hne
    rw [← List.append_assoc] at htext
    obtain ⟨-, hlast⟩ := List.append_inj' htext rfl
    rw [hlast]
    exact .inl (.pair bonds)
  | newlines blank next =>
    obtain ⟨middle, -, rfl⟩ | ⟨middle, rfl, hback⟩ := List.append_eq_append_iff.1 htext
    · exact .inl (.newlines blank next)
    · obtain ⟨-, rfl⟩ | ⟨blanks, rfl, rfl⟩ := List.cons_eq_append_iff.1 hback
      · exact .inl ((newlines blank next : Joins ([] ++ _) _))
      · obtain ⟨d, back, rfl⟩ := List.exists_cons_of_ne_nil hne
        rw [List.forall_mem_append, List.forall_mem_cons] at blank
        exact .inr (.newlines blank.1 (isLayout_of_isBlank blank.2.1))

end Joins

namespace Utf8

theorem append_inj_of_size {first second rest rest' : List Char}
    (h : first ++ rest = second ++ rest') (hsize : size first = size second) :
    first = second ∧ rest = rest' := by
  have hnil {text middle : List Char} (hsame : size (text ++ middle) = size text) :
      middle = [] := by
    by_contra hne
    have hpos := size_pos hne
    rw [size_append] at hsame
    omega
  obtain ⟨middle, rfl, hrest⟩ | ⟨middle, rfl, hrest⟩ := List.append_eq_append_iff.1 h
  · obtain rfl := hnil hsize.symm
    simpa using hrest
  · obtain rfl := hnil hsize
    simpa using hrest.symm

end Utf8

/-! ### Streams -/

namespace Scanner

variable {distinguish : Bool}

/-- Where a lexeme reaches over the seam, the stream of the first text is not the beginning of the
stream of both. -/
theorem not_joins_of_entries_eq {text suffix : List Char} {position position' offset : Nat}
    {others : List Entry} (hfault : (stream distinguish ⟨text, position, offset⟩).fault = none)
    (h : (stream distinguish ⟨text ++ suffix, position', offset⟩).entries =
      (stream distinguish ⟨text, position, offset⟩).entries ++ others) : ¬Joins text suffix := by
  induction text using lexeme_induction distinguish
    generalizing position position' offset others with
  | nil =>
    intro hjoins
    obtain ⟨c, d, hc, -⟩ := hjoins.exists_border
    cases hc
  | blank first rest hblank ih =>
    rw [stream_blank hblank] at hfault h
    rw [List.cons_append, stream_blank hblank] at h
    exact fun hjoins => ih hfault h (hjoins.of_cons_blank hblank)
  | fault first rest fault hblank hreading =>
    rw [stream_fault hblank hreading] at hfault
    cases hfault
  | lexeme first rest reading hblank hreading ih =>
    rw [stream_lexeme hblank hreading] at hfault h
    cases hreading' : Lexeme.classify distinguish first
        (Lexeme.munch first (rest ++ suffix)).1 with
    | error fault =>
      rw [List.cons_append, stream_fault hblank hreading'] at h
      cases h
    | ok reading' =>
      rw [List.cons_append, stream_lexeme hblank hreading'] at h
      obtain ⟨hentry, htail⟩ := List.cons.inj h
      have hspan := congrArg Entry.span hentry
      rw [Lexeme.span_entry, Lexeme.span_entry, Span.mk.injEq] at hspan
      have htext : (Lexeme.munch first (rest ++ suffix)).1 ++
          (Lexeme.munch first (rest ++ suffix)).2 =
            (Lexeme.munch first rest).1 ++ ((Lexeme.munch first rest).2 ++ suffix) := by
        rw [Lexeme.munch_append, ← List.append_assoc, Lexeme.munch_append, List.cons_append]
      obtain ⟨hlexeme, hrest⟩ := Utf8.append_inj_of_size htext (by omega)
      have hapart : ¬Joins (Lexeme.munch first (rest ++ suffix)).1
          (Lexeme.munch first (rest ++ suffix)).2 := Lexeme.not_joins_munch hblank
      rw [hlexeme, hrest] at hapart htail
      intro hjoins
      rw [← Lexeme.munch_append first rest] at hjoins
      by_cases hend : (Lexeme.munch first rest).2 = []
      · rw [hend, List.nil_append] at hapart
        rw [hend, List.append_nil] at hjoins
        exact hapart hjoins
      · obtain hback | hfront := hjoins.append_cases hend
        · exact ih hfault htail hback
        · exact Lexeme.not_joins_munch hblank hfront

end Scanner

/-! ### Scans -/

section Scans

variable {settings : Settings} {a b : String} {first second : List Entry}

theorem rawStream_append (ha : scan settings a = .ok first) (hb : scan settings b = .ok second)
    (h : ¬Joins a.toList b.toList) :
    rawStream settings (a ++ b) =
      { entries := first ++ second.map (Entry.shift (Utf8.size a.toList)) } := by
  have hfirst : Scanner.stream settings.distinguishes ⟨a.toList, 0, 0⟩ = ⟨first, none⟩ :=
    scan_eq_ok_iff.1 ha
  have hsecond : Scanner.stream settings.distinguishes ⟨b.toList, 0, 0⟩ = ⟨second, none⟩ :=
    scan_eq_ok_iff.1 hb
  rw [rawStream, Scanner.ofSource, String.toList_append,
    Scanner.stream_append (Scanner.seamless_of_not_joins h) 0 0 (congrArg RawStream.fault hfirst),
    Scanner.stream_shift b.toList _ 0 0, hfirst, hsecond]
  rfl

theorem scan_append_of_not_joins (ha : scan settings a = .ok first)
    (hb : scan settings b = .ok second) (h : ¬Joins a.toList b.toList) :
    scan settings (a ++ b) = .ok (first ++ second.map (Entry.shift (Utf8.size a.toList))) :=
  scan_eq_ok_iff.2 (rawStream_append ha hb h)

theorem not_joins_of_scan_append {others : List Entry} (ha : scan settings a = .ok first)
    (hall : scan settings (a ++ b) = .ok (first ++ others)) : ¬Joins a.toList b.toList := by
  have hfirst : Scanner.stream settings.distinguishes ⟨a.toList, 0, 0⟩ = ⟨first, none⟩ :=
    scan_eq_ok_iff.1 ha
  have hboth := scan_eq_ok_iff.1 hall
  rw [rawStream, Scanner.ofSource, String.toList_append] at hboth
  have hentries : (Scanner.stream settings.distinguishes ⟨a.toList ++ b.toList, 0, 0⟩).entries =
      (Scanner.stream settings.distinguishes ⟨a.toList, 0, 0⟩).entries ++ others := by
    rw [hfirst]
    exact congrArg RawStream.entries hboth
  exact Scanner.not_joins_of_entries_eq (congrArg RawStream.fault hfirst) hentries

end Scans

/-! ### Bad characters -/

/-- A character of no class that is no mark by itself. It may still be half of an arrow. -/
structure IsBad (c : Char) : Prop where
  not_class : ∀ p, IsClass p → p c = false
  not_mark : c ∉ ['(', ')', ':']

namespace IsBad

variable {c : Char}

def entry (c : Char) : Entry :=
  .error ⟨.unrecognizedToken, ⟨0, c.utf8Size⟩, String.ofList [c]⟩

theorem scan_eq (h : IsBad c) (settings : Settings) :
    scan settings (String.singleton c) = .ok [entry c] := by
  have hlayout := h.not_class _ .layout
  have hletter := h.not_class _ .letter
  have hdigit := h.not_class _ .digit
  have hmark := h.not_mark
  rw [isLayout, Bool.or_eq_false_iff] at hlayout
  simp only [List.mem_cons, List.not_mem_nil, or_false, not_or] at hmark
  have hnewline : c ≠ '\n' := by simpa using hlayout.2
  have hmunch : Lexeme.munch c [] = ([c], []) := by
    simp [Lexeme.munch, hnewline, hletter, hdigit]
  have hreading : Lexeme.classify settings.distinguishes c (Lexeme.munch c []).1 =
      .ok (.error .unrecognizedToken (String.ofList [c])) := by
    rw [hmunch]
    simp [Lexeme.classify, Lexeme.classifyPunctuation, hnewline, hletter, hdigit, hmark]
  rw [String.singleton_eq_ofList, scan_lexeme settings c [] _ hlayout.1 (by rw [hmunch]) hreading]
  rfl

theorem not_joins_left (h : IsBad c) {after : List Char}
    (harrow : ¬(c = '-' ∧ after.head? = some '>')) (before : List Char) :
    ¬Joins (before ++ [c]) after := by
  intro hjoins
  obtain ⟨d, e, hd, he, hborder⟩ := hjoins.exists_border
  rw [List.getLast?_concat] at hd
  obtain rfl := Option.some.inj hd
  obtain ⟨rfl, rfl⟩ | ⟨p, hp, hc, -⟩ := hborder
  · exact harrow ⟨rfl, he⟩
  · rw [h.not_class p hp] at hc
    cases hc

theorem not_joins_right (h : IsBad c) {before : List Char}
    (harrow : ¬(before.getLast? = some '-' ∧ c = '>')) (after : List Char) :
    ¬Joins before (c :: after) := by
  intro hjoins
  obtain ⟨d, e, hd, he, hborder⟩ := hjoins.exists_border
  obtain rfl := Option.some.inj he
  obtain ⟨rfl, rfl⟩ | ⟨p, hp, -, hc⟩ := hborder
  · exact harrow ⟨hd, rfl⟩
  · rw [h.not_class p hp] at hc
    cases hc

end IsBad

/-- **Concatenation.** The scan of two texts put together is the scan of the first and then that of
the second, with its spans moved by the size of the first, just when no lexeme reaches over the
seam. A bad character that is not half of an arrow leaves the scans of both texts as they are. -/
theorem scan_append {settings : Settings} {a b : String} {first second : List Entry}
    (ha : scan settings a = .ok first) (hb : scan settings b = .ok second) :
    (scan settings (a ++ b) =
        .ok (first ++ second.map (Entry.shift (Utf8.size a.toList))) ↔
      ¬Joins a.toList b.toList) ∧
    ∀ c, IsBad c → ¬(a.toList.getLast? = some '-' ∧ c = '>') →
      ¬(c = '-' ∧ b.toList.head? = some '>') →
        scan settings (a ++ String.singleton c ++ b) =
          .ok (first ++ (IsBad.entry c).shift (Utf8.size a.toList) ::
            second.map (Entry.shift (Utf8.size (a ++ String.singleton c).toList))) := by
  refine ⟨⟨not_joins_of_scan_append ha, scan_append_of_not_joins ha hb⟩, ?_⟩
  intro c hbad hbefore hafter
  have hc : (String.singleton c).toList = [c] := by
    rw [String.singleton_eq_ofList, String.toList_ofList]
  have hleft : ¬Joins a.toList (String.singleton c).toList := by
    rw [hc]
    exact hbad.not_joins_right hbefore []
  have hright : ¬Joins (a ++ String.singleton c).toList b.toList := by
    rw [String.toList_append, hc]
    exact hbad.not_joins_left hafter a.toList
  have hfront := scan_append_of_not_joins ha (hbad.scan_eq settings) hleft
  rw [scan_append_of_not_joins hfront hb hright, List.append_assoc]
  rfl

/-- Two texts with characters of one, two and three bytes, together and around a bad character. -/
theorem scan_append_widths :
    ∃ first second : List Entry,
      scan {} "é\n\t" = .ok first ∧ scan {} "x€ 1" = .ok second ∧
      first = [.error ⟨.unrecognizedToken, ⟨0, 2⟩, "é"⟩, .token ⟨.newline, ⟨2, 4⟩, .text "\n\t"⟩] ∧
      second = [.token ⟨.identifier, ⟨0, 1⟩, .text "x"⟩,
        .error ⟨.unrecognizedToken, ⟨1, 4⟩, "€"⟩, .token ⟨.integer, ⟨5, 6⟩, .number 1⟩] ∧
      ¬Joins "é\n\t".toList "x€ 1".toList ∧ IsBad 'ß' ∧
      ¬("é\n\t".toList.getLast? = some '-' ∧ 'ß' = '>') ∧
      ¬('ß' = '-' ∧ "x€ 1".toList.head? = some '>') ∧
      scan {} ("é\n\t" ++ "x€ 1") = .ok (first ++ second.map (Entry.shift 4)) ∧
      scan {} ("é\n\t" ++ "ß" ++ "x€ 1") =
        .ok (first ++ .error ⟨.unrecognizedToken, ⟨4, 6⟩, "ß"⟩ ::
          second.map (Entry.shift 6)) := by
  have hfirst : scan {} "é\n\t" = .ok [.error ⟨.unrecognizedToken, ⟨0, 2⟩, "é"⟩,
      .token ⟨.newline, ⟨2, 4⟩, .text "\n\t"⟩] := by cbv
  have hsecond : scan {} "x€ 1" = .ok [.token ⟨.identifier, ⟨0, 1⟩, .text "x"⟩,
      .error ⟨.unrecognizedToken, ⟨1, 4⟩, "€"⟩, .token ⟨.integer, ⟨5, 6⟩, .number 1⟩] := by cbv
  have hapart : ¬Joins "é\n\t".toList "x€ 1".toList := by
    intro hjoins
    obtain ⟨c, d, hc, hd, hborder⟩ := hjoins.exists_border
    obtain rfl := Option.some.inj hc
    obtain rfl := Option.some.inj hd
    obtain ⟨hmark, -⟩ | ⟨p, hp, hpc, hpd⟩ := hborder
    · exact absurd hmark (by decide)
    · cases hp with
      | layout => cases hpd
      | letter => cases hpc
      | digit => cases hpc
  have hbad : IsBad 'ß' := ⟨fun p hp => by cases hp <;> rfl, by decide⟩
  have hbefore : ¬("é\n\t".toList.getLast? = some '-' ∧ 'ß' = '>') := by decide
  have hafter : ¬('ß' = '-' ∧ "x€ 1".toList.head? = some '>') := by decide
  obtain ⟨hlaw, hbetween⟩ := scan_append hfirst hsecond
  exact ⟨_, _, hfirst, hsecond, rfl, rfl, hapart, hbad, hbefore, hafter, hlaw.2 hapart,
    hbetween 'ß' hbad hbefore hafter⟩

end Offside
