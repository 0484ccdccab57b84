import Mathlib
import Offside.Proofs.Arrangement
import Offside.Proofs.RawEntries
import Offside.Proofs.Readings

/-!
# Blank lines

Blank lines and blanks at the end of a line change nothing but places and the characters of
newlines: `insignificant_blanks`. A run of newlines gives the layout no more than the width of its
last line, and that is the same whatever stands in the run before it. The proof is a simulation
between two scanners that are at different places of different texts.
-/

namespace Offside

open Lexeme (Reading)

/-! ### Profiles -/

/-- What the layout sees of a reading: a newline counts by the width of the line behind it. -/
def Lexeme.Reading.profile : Reading → Reading
  | .token .newline value => .token .newline (.number (Layout.lineWidth value))
  | reading => reading

/-- An entry without its place and, if it is a newline, without its characters. -/
def Entry.profile (entry : Entry) : Reading :=
  entry.reading.profile

def Readings.profile (readings : Readings) : Readings :=
  { readings with all := readings.all.map Reading.profile }

theorem RawStream.profile_readings (stream : RawStream) :
    stream.readings.profile =
      { all := stream.entries.map Entry.profile, fault := stream.fault } := by
  rw [readings, Readings.profile, List.map_map]
  rfl

theorem Readings.profile_cons (reading : Reading) (readings : Readings) :
    (readings.cons reading).profile = readings.profile.cons reading.profile := rfl

/-! ### Scanning -/

theorem profile_newline (before run : List Char) :
    (Reading.token .newline (.text (String.ofList (before ++ '\n' :: run)))).profile =
      (Reading.token .newline (.text (String.ofList ('\n' :: run)))).profile := by
  simp only [Reading.profile, Layout.lineWidth_text, String.toList_ofList,
    lastLine_append_newline]

namespace Lexeme

variable {first : Char} {rest suffix : List Char}

theorem munch_append_of_layout (hblank : isBlank first = false)
    (hsuffix : ∀ c ∈ suffix.head?, isLayout c = true)
    (hends : ¬(first = '\n' ∧ (munch first rest).2 = [])) :
    munch first (rest ++ suffix) = ((munch first rest).1, (munch first rest).2 ++ suffix) := by
  refine munch_append_of_not_joins hblank fun hall hjoins => hends ⟨?_, hall⟩
  have hlexeme : (munch first rest).1 = first :: rest := by
    rw [← munch_append first rest, hall, List.append_nil]
  obtain ⟨c, d, hc, hd, ⟨-, rfl⟩ | ⟨p, hp, hpc, hpd⟩⟩ := hjoins.exists_border
  · exact absurd (hsuffix '>' hd) (by decide)
  · rw [IsClass.unique hp .layout hpd (hsuffix d hd)] at hpc
    have hmem : c ∈ (munch first rest).1 := hlexeme ▸ List.mem_of_getLast? hc
    exact eq_newline_of_isLayout (isClass_of_mem_munch .layout hmem hpc) hblank

end Lexeme

namespace Scanner

variable {distinguish : Bool} {front layout : List Char}

theorem readings_newline (rest : List Char) :
    readings distinguish ('\n' :: rest) =
      (readings distinguish (rest.dropWhile isLayout)).cons
        (.token .newline (.text (String.ofList ('\n' :: rest.takeWhile isLayout)))) := by
  have hreading : Lexeme.classify distinguish '\n' (Lexeme.munch '\n' rest).1 =
      .ok (.token .newline (.text (String.ofList ('\n' :: rest.takeWhile isLayout)))) := by
    rw [Lexeme.munch_newline]
    rfl
  rw [readings_lexeme rfl hreading, Lexeme.munch_newline]

theorem profile_layout_newline (hlayout : ∀ c ∈ layout, isLayout c = true) (text : List Char) :
    (readings distinguish (layout ++ '\n' :: text)).profile =
      (readings distinguish ('\n' :: text)).profile := by
  induction layout with
  | nil => rfl
  | cons c layout ih =>
    rw [List.forall_mem_cons] at hlayout
    cases hblank : isBlank c with
    | true =>
      rw [List.cons_append, readings_blank hblank]
      exact ih hlayout.2
    | false =>
      obtain rfl := eq_newline_of_isLayout hlayout.1 hblank
      have htake : (layout ++ '\n' :: text).takeWhile isLayout =
          layout ++ '\n' :: text.takeWhile isLayout := by
        rw [List.takeWhile_append_of_pos hlayout.2]
        rfl
      have hdrop : (layout ++ '\n' :: text).dropWhile isLayout = text.dropWhile isLayout := by
        rw [List.dropWhile_append_of_pos hlayout.2]
        rfl
      rw [List.cons_append, readings_newline, readings_newline, htake, hdrop,
        Readings.profile_cons, Readings.profile_cons, ← List.cons_append, profile_newline]

section Lines

variable {first : Char} {rest suffix : List Char}

theorem readings_lexeme_append {reading : Reading} (hblank : isBlank first = false)
    (hreading : Lexeme.classify distinguish first (Lexeme.munch first rest).1 = .ok reading)
    (hsuffix : ∀ c ∈ suffix.head?, isLayout c = true)
    (hends : ¬(first = '\n' ∧ (Lexeme.munch first rest).2 = [])) :
    readings distinguish (first :: rest ++ suffix) =
      (readings distinguish ((Lexeme.munch first rest).2 ++ suffix)).cons reading := by
  have hmunch := Lexeme.munch_append_of_layout hblank hsuffix hends
  rw [List.cons_append, readings_lexeme hblank (by rw [hmunch]; exact hreading), hmunch]

theorem readings_fault_append {fault : Text.TooManyDigits} (hblank : isBlank first = false)
    (hfault : Lexeme.classify distinguish first (Lexeme.munch first rest).1 = .error fault)
    (hsuffix : ∀ c ∈ suffix.head?, isLayout c = true) :
    readings distinguish (first :: rest ++ suffix) = { fault := some fault } := by
  have hends : ¬(first = '\n' ∧ (Lexeme.munch first rest).2 = []) := by
    rintro ⟨rfl, -⟩
    cases hfault
  have hmunch := Lexeme.munch_append_of_layout hblank hsuffix hends
  rw [List.cons_append, readings_fault hblank (by rw [hmunch]; exact hfault)]

end Lines

theorem isLayout_head?_append_newline (hlayout : ∀ c ∈ layout, isLayout c = true)
    (text : List Char) : ∀ c ∈ (layout ++ '\n' :: text).head?, isLayout c = true := by
  intro c hc
  cases layout with
  | nil =>
    obtain rfl := Option.some.inj hc
    rfl
  | cons d layout =>
    obtain rfl := Option.some.inj hc
    exact hlayout _ List.mem_cons_self

theorem profile_insert (hlayout : ∀ c ∈ layout, isLayout c = true) (text : List Char) :
    (readings distinguish (front ++ (layout ++ '\n' :: text))).profile =
      (readings distinguish (front ++ '\n' :: text)).profile := by
  have hhead := isLayout_head?_append_newline hlayout text
  have hnewline : ∀ c ∈ ('\n' :: text).head?, isLayout c = true :=
    isLayout_head?_append_newline (List.forall_mem_nil _) text
  induction front using lexeme_induction distinguish with
  | nil => exact profile_layout_newline hlayout text
  | blank first rest hblank ih =>
    rw [List.cons_append, List.cons_append, readings_blank hblank, readings_blank hblank]
    exact ih
  | fault first rest fault hblank hreading =>
    rw [readings_fault_append hblank hreading hhead, readings_fault_append hblank hreading hnewline]
  | lexeme first rest reading hblank hreading ih =>
    by_cases hends : first = '\n' ∧ (Lexeme.munch first rest).2 = []
    · -- A run that ends the front goes on into what is put in.
      obtain ⟨rfl, hrest⟩ := hends
      rw [Lexeme.munch_newline] at hrest
      have hfront : ∀ c ∈ '\n' :: rest, isLayout c = true :=
        List.forall_mem_cons.2 ⟨rfl, List.dropWhile_eq_nil_iff.1 hrest⟩
      rw [← List.append_assoc, profile_layout_newline hfront,
        profile_layout_newline (List.forall_mem_append.2 ⟨hfront, hlayout⟩)]
    · rw [readings_lexeme_append hblank hreading hhead hends,
        readings_lexeme_append hblank hreading hnewline hends, Readings.profile_cons,
        Readings.profile_cons, ih]

end Scanner

/-! ### Layout -/

def Entry.move (place : Int) : Entry → Entry
  | .token t => .token { t with span := .point place }
  | .error e => .error { e with span := .point place }

def Phase.move (place : Int) : Phase → Phase
  | .seek => .seek
  | .compare width _ => .compare width place
  | .close width _ => .close width place
  | .flush _ => .flush place

theorem Entry.profile_move (place : Int) (entry : Entry) :
    (entry.move place).profile = entry.profile := by
  cases entry <;> rfl

namespace Layout

theorem settle_move (widths : Widths) (phase : Phase) (place : Int) :
    settle widths (phase.move place) =
      (settle widths phase).map fun due =>
        (due.1.move place, due.2.1.move place, due.2.2) := by
  cases phase with
  | seek => rfl
  | compare width _ =>
    simp only [settle, Phase.move]
    split_ifs <;> rfl
  | close width _ =>
    simp only [settle, Phase.move]
    split_ifs <;> rfl
  | flush _ =>
    simp only [settle, Phase.move]
    split_ifs <;> rfl

/-- Entries with the blocks that are open behind them, without their places. -/
def profiles (due : List (Entry × Widths)) : List Reading :=
  due.map fun entry => entry.1.profile

theorem settleAll_move (widths : Widths) (phase : Phase) (place : Int) :
    profiles (settleAll widths (phase.move place)).1 = profiles (settleAll widths phase).1 ∧
      (settleAll widths (phase.move place)).2 = (settleAll widths phase).2 := by
  induction widths, phase using settle_induction with
  | settled widths phase hsettle =>
    have hmove := settle_move widths phase place
    rw [hsettle] at hmove
    rw [settleAll_of_none hsettle, settleAll_of_none hmove]
    exact ⟨rfl, rfl⟩
  | due widths phase entry phase' widths' hsettle ih =>
    have hmove := settle_move widths phase place
    rw [hsettle] at hmove
    obtain ⟨hentries, hwidths⟩ := ih
    rw [settleAll_of_some hsettle, settleAll_of_some hmove]
    exact ⟨congrArg₂ List.cons (entry.profile_move place) hentries, hwidths⟩

theorem after_of_profile (entry : Entry) :
    after entry =
      match entry.profile with
      | .token .newline (.number width) => .compare width.toNat entry.span.stop
      | _ => .seek := by
  cases entry with
  | error error => rfl
  | token token =>
    obtain ⟨kind, span, value⟩ := token
    cases kind <;> rfl

theorem after_eq_move {entry entry' : Entry} (h : entry.profile = entry'.profile) :
    after entry = (after entry').move entry.span.stop := by
  rw [after_of_profile, after_of_profile, h]
  split <;> rfl

theorem profiles_arrange_cons (place : Int) (widths : Widths) (entry : Entry) (raw : List Entry) :
    profiles (arrange place widths (entry :: raw)).1 =
      entry.profile :: (profiles (settleAll widths (after entry)).1 ++
        profiles (arrange place (settleAll widths (after entry)).2 raw).1) := by
  rw [arrange_cons, profiles, List.map_cons, List.map_append]
  rfl

/-- The layout of raw entries depends on their profiles only. -/
theorem profiles_arrange {raw raw' : List Entry}
    (h : raw.map Entry.profile = raw'.map Entry.profile) (widths : Widths) (place place' : Int) :
    profiles (arrange place widths raw).1 = profiles (arrange place' widths raw').1 := by
  induction raw generalizing raw' widths with
  | nil =>
    obtain rfl := List.map_eq_nil_iff.1 h.symm
    exact (settleAll_move widths (.flush place') place).1
  | cons entry raw ih =>
    obtain ⟨entry', raw', rfl, hentry, hraw⟩ := List.map_eq_cons_iff.1 h.symm
    obtain ⟨hdue, hwidths⟩ := settleAll_move widths (after entry') entry.span.stop
    rw [← after_eq_move hentry.symm] at hdue hwidths
    rw [profiles_arrange_cons, profiles_arrange_cons, hentry, hdue, hwidths, ih hraw.symm]

end Layout

/-! ### Sources -/

section Sources

variable {settings : Settings}

theorem lex_map_profile (hpermissive : settings.isStrict = false) (source : String)
    (file : Option String) :
    (lex settings source file).map (List.map Entry.profile) =
      match (rawStream settings source).fault with
      | none => .ok (Layout.profiles (Layout.arrange (Utf8.size source.toList) []
          (rawStream settings source).entries).1)
      | some fault => .error (.tooManyDigits fault) := by
  rw [lex_eq_arrange hpermissive]
  cases (rawStream settings source).fault with
  | some fault => rfl
  | none => exact congrArg Except.ok (List.map_map ..)

theorem lex_map_profile_congr (hpermissive : settings.isStrict = false) {source source' : String}
    (h : (Scanner.readings settings.distinguishes source.toList).profile =
      (Scanner.readings settings.distinguishes source'.toList).profile) (file : Option String) :
    (lex settings source file).map (List.map Entry.profile) =
      (lex settings source' file).map (List.map Entry.profile) := by
  rw [← readings_rawStream, ← readings_rawStream, RawStream.profile_readings,
    RawStream.profile_readings, Readings.mk.injEq] at h
  obtain ⟨hraw, hfault⟩ := h
  rw [lex_map_profile hpermissive, lex_map_profile hpermissive, hfault,
    Layout.profiles_arrange hraw [] (Utf8.size source.toList) (Utf8.size source'.toList)]

/-- **Insignificant blanks.** A blank line put in behind a line, and blanks put in at the end of a
line, leave a permissive stream as it is, but for its places and the characters of its newlines, and
leave a source without a stream without one. -/
theorem insignificant_blanks (hpermissive : settings.isStrict = false) (u v : String) {w : String}
    (hw : ∀ c ∈ w.toList, isBlank c = true) (file : Option String) :
    (lex settings (u ++ "\n" ++ w ++ "\n" ++ v) file).map (List.map Entry.profile) =
        (lex settings (u ++ "\n" ++ v) file).map (List.map Entry.profile) ∧
      (lex settings (u ++ w ++ "\n" ++ v) file).map (List.map Entry.profile) =
        (lex settings (u ++ "\n" ++ v) file).map (List.map Entry.profile) := by
  have hblanks : ∀ c ∈ w.toList, isLayout c = true := fun c hc => isLayout_of_isBlank (hw c hc)
  have hline : ∀ c ∈ '\n' :: w.toList, isLayout c = true :=
    List.forall_mem_cons.2 ⟨rfl, hblanks⟩
  have hinsert {layout : List Char} (hlayout : ∀ c ∈ layout, isLayout c = true) :
      (Scanner.readings settings.distinguishes
          (u.toList ++ (layout ++ '\n' :: v.toList))).profile =
        (Scanner.readings settings.distinguishes (u.toList ++ '\n' :: v.toList)).profile :=
    Scanner.profile_insert hlayout v.toList
  constructor
  · refine lex_map_profile_congr hpermissive ?_ file
    simpa using hinsert hline
  · refine lex_map_profile_congr hpermissive ?_ file
    simpa using hinsert hblanks

/-- Blanks between a bad character and a newline, with blocks that open and close behind them. -/
theorem insignificant_blanks_indented :
    let profiles : List Reading :=
      [.token .identifier (.text "f"), .error .unrecognizedToken "#", .token .newline (.number 2),
        .token .indentation .nothing, .token .identifier (.text "g"), .token .newline (.number 1),
        .token .deindentation .nothing, .error .inconsistentDedent "",
        .token .identifier (.text "h")]
    ({} : Settings).isStrict = false ∧ (∀ c ∈ " \t".toList, isBlank c = true) ∧
      (lex {} ("f #" ++ "\n" ++ " \t" ++ "\n" ++ "  g\n h")).map (List.map Entry.profile) =
        .ok profiles ∧
      (lex {} ("f #" ++ " \t" ++ "\n" ++ "  g\n h")).map (List.map Entry.profile) =
        .ok profiles := by
  intro profiles
  have hpermissive : ({} : Settings).isStrict = false := rfl
  have hblanks : ∀ c ∈ " \t".toList, isBlank c = true := by simp [isBlank]
  have hlex : (lex {} ("f #" ++ "\n" ++ "  g\n h")).map (List.map Entry.profile) =
      .ok profiles := by cbv
  obtain ⟨hline, hend⟩ := insignificant_blanks hpermissive "f #" "  g\n h" hblanks none
  exact ⟨hpermissive, hblanks, hline.trans hlex, hend.trans hlex⟩

end Sources

end Offside
