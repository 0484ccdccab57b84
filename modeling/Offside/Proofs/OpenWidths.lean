import Mathlib
import Offside.Proofs.Arrangement
import Offside.Proofs.BlockBalance
import Offside.Proofs.PrintedNumbers

/-!
# Open widths

Layout keeps the open widths in a list and compares a line with the innermost of them alone. As the
list increases strictly, all that it does can be told from the set of the open widths:
`Layout.answer` tells it of one line and `layout_of_any_entries` of any entries whatever, as far as
their newlines can be written out.
-/

namespace Offside

/-! ### Sets of widths -/

namespace Widths

variable {widths : Widths} {inner : Nat}

/-- The set of the open widths, that of the outermost block included. -/
def opened (widths : Widths) : Finset Nat :=
  widths.levels.toFinset

theorem opened_nil : opened [] = {0} := rfl

theorem opened_cons (inner : Nat) (widths : Widths) :
    opened (inner :: widths) = insert inner widths.opened := by
  rw [opened, levels_cons, List.toFinset_append, List.toFinset_cons, List.toFinset_nil,
    insert_empty_eq, Finset.union_comm, ← Finset.insert_eq, opened]

theorem innermost_mem_opened (widths : Widths) : widths.innermost ∈ widths.opened :=
  List.mem_toFinset.2 (List.mem_of_getLast? (getLast?_levels widths))

theorem Ordered.le_of_mem_opened (h : widths.Ordered) :
    ∀ level ∈ widths.opened, level ≤ widths.innermost :=
  fun level hlevel => h.le_innermost level (List.mem_toFinset.1 hlevel)

theorem Ordered.lt_of_mem_opened (h : Ordered (inner :: widths)) :
    ∀ level ∈ widths.opened, level < inner := by
  rw [Ordered, levels_cons, List.pairwise_append] at h
  exact fun level hlevel =>
    h.2.2 level (List.mem_toFinset.1 hlevel) inner (List.mem_singleton_self inner)

theorem Ordered.max_opened (h : widths.Ordered) : widths.opened.max = widths.innermost :=
  le_antisymm
    (Finset.max_le fun level hlevel => WithBot.coe_le_coe.2 (h.le_of_mem_opened level hlevel))
    (Finset.le_max widths.innermost_mem_opened)

theorem Ordered.pos (h : Ordered (inner :: widths)) : 0 < inner :=
  Nat.zero_lt_of_lt (h.lt_of_mem_opened _ widths.innermost_mem_opened)

theorem Ordered.eq_nil (h : widths.Ordered) (hopened : widths.opened = {0}) : widths = [] := by
  cases widths with
  | nil => rfl
  | cons inner widths =>
    have hinner : inner ∈ opened (inner :: widths) := innermost_mem_opened (inner :: widths)
    rw [hopened, Finset.mem_singleton] at hinner
    exact absurd hinner h.pos.ne'

end Widths

/-! ### Answers -/

namespace Layout

/-- What closing the blocks beyond a width gives: one entry for each of them, the widest first, with
the widths that are still open behind it. -/
def closings (opened : Finset Nat) (width : Nat) (place : Int) : List (Entry × Finset Nat) :=
  ((opened.filter (width < ·)).sort (· ≥ ·)).map fun level =>
    (deindentation place, opened.filter (· < level))

/-- What closing up to a width gives: the width is reported if no block is left for it. -/
def dedent (opened : Finset Nat) (width : Nat) (place : Int) : List (Entry × Finset Nat) :=
  closings opened width place ++
    if width ∈ opened then [] else [(inconsistentDedent place, opened.filter (· ≤ width))]

/-- What a line gives rise to, with the widths that are open behind each entry. -/
def answer (opened : Finset Nat) (width : Nat) (place : Int) : List (Entry × Finset Nat) :=
  if opened.max = width then []
  else if opened.max < width then [(indentation place, insert width opened)]
  else dedent opened width place

/-- The widths that are open on a line. -/
def reopen (opened : Finset Nat) (width : Nat) : Finset Nat :=
  opened.filter (· ≤ width) ∪ if opened.max < width then {width} else ∅

/-- What directly follows an entry. -/
def answerTo (opened : Finset Nat) : Entry → List (Entry × Finset Nat)
  | .token token =>
    if token.kind = .newline then answer opened (lineWidth token.value) token.span.stop else []
  | .error _ => []

/-- The widths that are open behind an entry and what directly follows it. -/
def openedBehind (opened : Finset Nat) : Entry → Finset Nat
  | .token token =>
    if token.kind = .newline then reopen opened (lineWidth token.value) else opened
  | .error _ => opened

/-- Entries with the answer to each newline behind it. -/
def answered (opened : Finset Nat) : List Entry → List (Entry × Finset Nat)
  | [] => []
  | entry :: entries =>
    (entry, opened) :: answerTo opened entry ++ answered (openedBehind opened entry) entries

/-- All that is laid out, with the set of the widths that are open behind each entry. -/
def Applied.told (applied : Applied) : List (Entry × Finset Nat) :=
  applied.entries.map (Prod.map id Widths.opened)

/-- An entry that is no newline, or a newline that can be written out. -/
def Measurable (entry : Entry) : Prop :=
  ∀ token, entry = .token token → token.kind = .newline → token.value.isWritable = true

/-- What layout has settled comes to `due` and leaves `left` open, told in sets. -/
structure Told (due : List (Entry × Finset Nat)) (left : Finset Nat)
    (settled : List (Entry × Widths) × Widths) : Prop where
  due : settled.1.map (Prod.map id Widths.opened) = due
  opened : settled.2.opened = left
  ordered : settled.2.Ordered

variable {widths widths' : Widths} {phase phase' : Phase} {entry : Entry} {inner width : Nat}
  {due : List (Entry × Finset Nat)} {left : Finset Nat}

theorem told_of_settle_none (h : widths.Ordered) (hsettle : settle widths phase = none) :
    Told [] widths.opened (settleAll widths phase) := by
  rw [settleAll_of_none hsettle]
  exact ⟨rfl, rfl, h⟩

theorem Told.cons (h : Told due left (settleAll widths' phase'))
    (hsettle : settle widths phase = some (entry, phase', widths')) :
    Told ((entry, widths'.opened) :: due) left (settleAll widths phase) := by
  rw [settleAll_of_some hsettle]
  exact ⟨congrArg (_ :: ·) h.due, h.opened, h.ordered⟩

/-! ### Closing -/

theorem closings_of_innermost_le (h : widths.Ordered) (hwidth : widths.innermost ≤ width)
    (place : Int) : closings widths.opened width place = [] := by
  have hnone : widths.opened.filter (width < ·) = ∅ :=
    Finset.filter_eq_empty_iff.2 fun level hlevel =>
      Nat.not_lt.2 ((h.le_of_mem_opened level hlevel).trans hwidth)
  rw [closings, hnone, Finset.sort_empty, List.map_nil]

/-- The innermost block is the widest, so it closes first. -/
theorem closings_cons (h : Widths.Ordered (inner :: widths)) (hwidth : width < inner)
    (place : Int) :
    closings (Widths.opened (inner :: widths)) width place =
      (deindentation place, widths.opened) :: closings widths.opened width place := by
  have hlt := h.lt_of_mem_opened
  have hsort : ((insert inner widths.opened).filter (width < ·)).sort (· ≥ ·) =
      inner :: (widths.opened.filter (width < ·)).sort (· ≥ ·) := by
    rw [Finset.filter_insert, if_pos hwidth, Finset.sort_insert]
    · exact fun level hlevel => (hlt level (Finset.mem_of_mem_filter level hlevel)).le
    · exact fun hinner => lt_irrefl _ (hlt inner (Finset.mem_of_mem_filter inner hinner))
  have hhead : (insert inner widths.opened).filter (· < inner) = widths.opened := by
    rw [Finset.filter_insert, if_neg (lt_irrefl inner), Finset.filter_true_of_mem hlt]
  rw [Widths.opened_cons, closings, hsort, List.map_cons, hhead, closings]
  refine congrArg (_ :: ·) (List.map_congr_left fun level hlevel => ?_)
  have hmem := Finset.mem_of_mem_filter level ((Finset.mem_sort _).1 hlevel)
  rw [Finset.filter_insert, if_neg (Nat.not_lt.2 (hlt level hmem).le)]

theorem told_close_of_innermost_le (h : widths.Ordered) (hwidth : widths.innermost ≤ width)
    (place : Int) :
    Told (dedent widths.opened width place) (widths.opened.filter (· ≤ width))
      (settleAll widths (.close width place)) := by
  have hall : widths.opened.filter (· ≤ width) = widths.opened :=
    Finset.filter_true_of_mem fun level hlevel => (h.le_of_mem_opened level hlevel).trans hwidth
  rw [dedent, closings_of_innermost_le h hwidth, List.nil_append, hall]
  obtain hless | rfl := hwidth.lt_or_eq
  · have hsettle : settle widths (.close width place) =
        some (inconsistentDedent place, .seek, widths) := by
      rw [settle, if_neg (Nat.not_lt.2 hwidth), if_pos hless]
    have hnew : width ∉ widths.opened :=
      fun hmem => Nat.not_lt.2 (h.le_of_mem_opened width hmem) hless
    rw [if_neg hnew]
    exact (told_of_settle_none h rfl).cons hsettle
  · have hsettle : settle widths (.close widths.innermost place) = none := by
      rw [settle, if_neg (lt_irrefl _), if_neg (lt_irrefl _)]
    rw [if_pos widths.innermost_mem_opened]
    exact told_of_settle_none h hsettle

/-- **Closing** takes off just the widths beyond that of the line. -/
theorem told_close (h : widths.Ordered) (width : Nat) (place : Int) :
    Told (dedent widths.opened width place) (widths.opened.filter (· ≤ width))
      (settleAll widths (.close width place)) := by
  -- The innermost block is at the front of the list, so blocks close in the order of the list.
  induction widths with
  | nil => exact told_close_of_innermost_le h (Nat.zero_le width) place
  | cons inner widths ih =>
    by_cases hclose : width < inner
    · have hsettle : settle (inner :: widths) (.close width place) =
          some (deindentation place, .close width place, widths) := if_pos hclose
      have hmem : width ∈ insert inner (Widths.opened widths) ↔ width ∈ Widths.opened widths := by
        rw [Finset.mem_insert, or_iff_right hclose.ne]
      rw [dedent, closings_cons h hclose, Widths.opened_cons, Finset.filter_insert,
        if_neg (Nat.not_le.2 hclose)]
      simp only [hmem]
      exact (ih h.tail).cons hsettle
    · exact told_close_of_innermost_le h (Nat.not_lt.1 hclose) place

theorem told_flush (h : widths.Ordered) (place : Int) :
    Told (closings widths.opened 0 place) {0} (settleAll widths (.flush place)) := by
  induction widths with
  | nil =>
    have hsettle : settle [] (.flush place) = none := rfl
    rw [closings_of_innermost_le h (Nat.zero_le 0)]
    exact told_of_settle_none h hsettle
  | cons inner widths ih =>
    rw [closings_cons h h.pos]
    exact (ih h.tail).cons rfl

/-! ### Comparing -/

theorem settleAll_congr (h : settle widths phase = settle widths phase') :
    settleAll widths phase = settleAll widths phase' := by
  cases hsettle : settle widths phase' with
  | none => rw [settleAll_of_none hsettle, settleAll_of_none (h.trans hsettle)]
  | some due => rw [settleAll_of_some hsettle, settleAll_of_some (h.trans hsettle)]

/-- **Comparing** the width of a line with the innermost width answers the line. -/
theorem told_compare (h : widths.Ordered) (width : Nat) (place : Int) :
    Told (answer widths.opened width place) (reopen widths.opened width)
      (settleAll widths (.compare width place)) := by
  rw [answer, reopen, h.max_opened]
  simp only [Nat.cast_inj, Nat.cast_lt]
  obtain hclose | rfl | hopen := lt_trichotomy width widths.innermost
  · have hsame : settle widths (.compare width place) = settle widths (.close width place) := by
      rw [settle, if_neg hclose.le.not_gt, if_pos hclose, settle, if_pos hclose]
    rw [if_neg hclose.ne', if_neg hclose.le.not_gt, if_neg hclose.le.not_gt, Finset.union_empty,
      settleAll_congr hsame]
    exact told_close h width place
  · have hsettle : settle widths (.compare widths.innermost place) = none := by
      rw [settle, if_neg (lt_irrefl _), if_neg (lt_irrefl _)]
    rw [if_pos rfl, if_neg (lt_irrefl _), Finset.union_empty,
      Finset.filter_true_of_mem h.le_of_mem_opened]
    exact told_of_settle_none h hsettle
  · have hsettle : settle widths (.compare width place) =
        some (indentation place, .seek, width :: widths) := if_pos hopen
    have hall : widths.opened.filter (· ≤ width) = widths.opened :=
      Finset.filter_true_of_mem fun level hlevel => (h.le_of_mem_opened level hlevel).trans hopen.le
    rw [if_neg hopen.ne, if_pos hopen, if_pos hopen, hall, Finset.union_comm, ← Finset.insert_eq,
      ← Widths.opened_cons]
    exact (told_of_settle_none (h.cons hopen) rfl).cons hsettle

example : answer {0, 2, 4} 1 7 =
    [(deindentation 7, {0, 2}), (deindentation 7, {0}), (inconsistentDedent 7, {0})] := by cbv

/-! ### Lists of entries -/

theorem measurable_of_isWritable {entry : Entry} (h : entry.isWritable = true) :
    Measurable entry := by
  rintro token rfl -
  exact h

theorem after_of_ne_newline {token : Token} (h : token.kind ≠ .newline) :
    after? (.token token) = .ok .seek := by
  unfold after?
  split
  · rename_i heq
    exact absurd (congrArg Token.kind (Entry.token.inj heq)) h
  · rfl

theorem exists_render_of_isWritable {value : Payload} (h : value.isWritable = true) :
    ∃ text, value.render = .ok text :=
  ⟨value.plain, by rw [Payload.render, if_pos h]⟩

theorem isWritable_eq_false_iff (value : Payload) :
    value.isWritable = false ↔ ∃ n, value = .number n ∧ 10 ^ Text.digitLimit ≤ n.natAbs := by
  cases value with
  | nothing => exact iff_of_false Bool.noConfusion fun ⟨_, h, _⟩ => by cases h
  | text s => exact iff_of_false Bool.noConfusion fun ⟨_, h, _⟩ => by cases h
  | number n =>
    rw [Payload.isWritable, Bool.eq_false_iff, ne_eq, Text.isWritable_iff, Text.convertible_iff,
      Nat.not_lt]
    constructor
    · exact fun h => ⟨n, rfl, h⟩
    · rintro ⟨m, hm, h⟩
      obtain rfl := Payload.number.inj hm
      exact h

theorem lineWidth?_eq_ok {value : Payload} (h : value.isWritable = true) :
    lineWidth? value = .ok (lineWidth value) := by
  obtain ⟨text, htext⟩ := exists_render_of_isWritable h
  rw [lineWidth, lineWidth?, htext]
  rfl

theorem lineWidth?_eq_error {value : Payload} (h : value.isWritable = false) :
    lineWidth? value = .error .tooManyDigits := by
  rw [lineWidth?, Payload.render, h]
  rfl

theorem after?_eq_ok {entry : Entry} (h : Measurable entry) : after? entry = .ok (after entry) := by
  unfold after after?
  split
  · rw [lineWidth?_eq_ok (h _ rfl rfl)]
    rfl
  · rfl

theorem after?_eq_error {newline : Token} (hkind : newline.kind = .newline)
    (h : newline.value.isWritable = false) :
    after? (.token newline) = .error .tooManyDigits := by
  obtain ⟨kind, span, value⟩ := newline
  obtain rfl : kind = .newline := hkind
  rw [after?, lineWidth?_eq_error h]
  rfl

theorem told_after (h : widths.Ordered) (hmeasurable : Measurable entry) :
    Told (answerTo widths.opened entry) (openedBehind widths.opened entry)
      (settleAll widths (after entry)) := by
  cases entry with
  | error error => exact told_of_settle_none h rfl
  | token token =>
    rw [answerTo, openedBehind]
    split_ifs with hkind
    · obtain ⟨kind, span, value⟩ := token
      obtain rfl : kind = .newline := hkind
      exact told_compare h (lineWidth value) span.stop
    · have hseek : after (.token token) = .seek :=
        Except.ok.inj ((after?_eq_ok hmeasurable).symm.trans (after_of_ne_newline hkind))
      rw [hseek]
      exact told_of_settle_none h rfl

theorem apply_cons {entry : Entry} (h : Measurable entry) (stop : Int) (widths : Widths)
    (entries : List Entry) :
    apply stop widths (entry :: entries) =
      (apply stop (settleAll widths (after entry)).2 entries).behind
        ((entry, widths) :: (settleAll widths (after entry)).1) := by
  rw [apply, after?_eq_ok h]

/-- Layout goes through entries with measurable lines as their answers tell, whatever is behind
them. -/
theorem exists_apply_append (h : widths.Ordered) (stop : Int) {front : List Entry}
    (hfront : ∀ entry ∈ front, Measurable entry) (rest : List Entry) :
    ∃ due final, apply stop widths (front ++ rest) = (apply stop final rest).behind due ∧
      due.map (Prod.map id Widths.opened) = answered widths.opened front ∧
      final.opened = front.foldl openedBehind widths.opened ∧ final.Ordered := by
  induction front generalizing widths with
  | nil => exact ⟨[], widths, rfl, rfl, rfl, h⟩
  | cons entry front ih =>
    obtain ⟨hentry, hothers⟩ := List.forall_mem_cons.1 hfront
    have htold := told_after h hentry
    obtain ⟨due, final, happly, hdue, hfinal, hordered⟩ := ih htold.ordered hothers
    rw [htold.opened] at hdue hfinal
    refine ⟨(entry, widths) :: (settleAll widths (after entry)).1 ++ due, final, ?_, ?_, hfinal,
      hordered⟩
    · rw [List.cons_append, apply_cons hentry, happly]
      simp only [Applied.behind, List.append_assoc]
    · rw [List.map_append, List.map_cons, htold.due, hdue]
      rfl

theorem apply_eq_arrange (stop : Int) (widths : Widths) {entries : List Entry}
    (h : ∀ entry ∈ entries, Measurable entry) :
    apply stop widths entries =
      { entries := (arrange stop widths entries).1
        widths := (arrange stop widths entries).2 } := by
  induction entries generalizing widths with
  | nil => rfl
  | cons entry entries ih =>
    obtain ⟨hentry, hothers⟩ := List.forall_mem_cons.1 h
    rw [apply_cons hentry, ih _ hothers]
    rfl

theorem told_apply (stop : Int) {entries : List Entry}
    (h : ∀ entry ∈ entries, Measurable entry) :
    (apply stop [] entries).fault = none ∧
      (apply stop [] entries).told =
        answered {0} entries ++ closings (entries.foldl openedBehind {0}) 0 stop ∧
      (apply stop [] entries).widths = [] := by
  obtain ⟨due, final, happly, hdue, hfinal, hordered⟩ :=
    exists_apply_append Widths.ordered_nil stop h []
  rw [Widths.opened_nil] at hdue hfinal
  rw [List.append_nil] at happly
  have hflush := told_flush hordered stop
  rw [happly, Applied.told, Applied.behind, List.map_append, hdue, ← hfinal]
  exact ⟨rfl, congrArg (_ ++ ·) hflush.due, hflush.ordered.eq_nil hflush.opened⟩

theorem told_apply_of_unwritable (stop : Int) {front back : List Entry} {newline : Token}
    (hfront : ∀ entry ∈ front, Measurable entry) (hkind : newline.kind = .newline)
    (hwritable : newline.value.isWritable = false) :
    (apply stop [] (front ++ .token newline :: back)).fault = some .tooManyDigits ∧
      (apply stop [] (front ++ .token newline :: back)).told =
        answered {0} front ++ [(.token newline, front.foldl openedBehind {0})] ∧
      (apply stop [] (front ++ .token newline :: back)).widths.opened =
        front.foldl openedBehind {0} := by
  obtain ⟨due, final, happly, hdue, hfinal, -⟩ :=
    exists_apply_append Widths.ordered_nil stop hfront (.token newline :: back)
  rw [Widths.opened_nil] at hdue hfinal
  have hcut : apply stop final (.token newline :: back) =
      { entries := [(.token newline, final)], widths := final, fault := some .tooManyDigits } := by
    rw [apply, after?_eq_error hkind hwritable]
  rw [happly, hcut, Applied.told, Applied.behind, List.map_append, hdue, ← hfinal]
  exact ⟨rfl, rfl, rfl⟩

theorem exists_split_lineWidth {value : Payload} (h : value.isWritable = true) :
    ∃ text before line, value.render = .ok text ∧ text.toList = before ++ line ∧
      (before = [] ∨ ['\n'] <:+ before) ∧ '\n' ∉ line ∧ lineWidth value = line.length := by
  obtain ⟨text, htext⟩ := exists_render_of_isWritable h
  obtain ⟨before, hsplit, hbefore, hline⟩ := exists_split_lastLine '\n' text.toList
  refine ⟨text, before, _, htext, hsplit, hbefore, hline, ?_⟩
  rw [lineWidth, lineWidth?, htext]
  rfl

end Layout

/-- **Layout in sets.** Over entries whose newlines can be written out, layout gives them back in
their order, with the answer to each newline directly behind it, and closes all blocks at the end of
the source. What it answers, and which widths are open behind each entry, is told by the set of the
widths that are open before. It breaks off behind the first newline that cannot be written out, a
number that is too long, as such a one has no width. -/
theorem layout_of_any_entries (source : String) (entries : List Entry) :
    let stop : Int := Utf8.size source.toList
    let applied := Layout.apply stop [] entries
    ((∀ entry ∈ entries, Layout.Measurable entry) →
      applied.fault = none ∧
        applied.told = Layout.answered {0} entries ++
          Layout.closings (entries.foldl Layout.openedBehind {0}) 0 stop ∧
        applied.widths.levels = [0] ∧
        Layout.arrange stop [] entries = (applied.entries, applied.widths)) ∧
      (∀ front newline back, entries = front ++ .token newline :: back →
        (∀ entry ∈ front, Layout.Measurable entry) → newline.kind = .newline →
          newline.value.isWritable = false →
            applied.fault = some .tooManyDigits ∧
              applied.told = Layout.answered {0} front ++
                [(.token newline, front.foldl Layout.openedBehind {0})] ∧
              applied.widths.opened = front.foldl Layout.openedBehind {0}) ∧
      ∀ value : Payload,
        (value.isWritable = false ↔ ∃ n, value = .number n ∧ 10 ^ Text.digitLimit ≤ n.natAbs) ∧
          (value.isWritable = true →
            ∃ text before line, value.render = .ok text ∧ text.toList = before ++ line ∧
              (before = [] ∨ ['\n'] <:+ before) ∧ '\n' ∉ line ∧
              Layout.lineWidth value = line.length) := by
  intro stop applied
  refine ⟨fun hentries => ?_, ?_, fun value =>
    ⟨Layout.isWritable_eq_false_iff value, Layout.exists_split_lineWidth⟩⟩
  · obtain ⟨hfault, htold, hwidths⟩ := Layout.told_apply stop hentries
    have harranged : applied = _ := Layout.apply_eq_arrange stop [] hentries
    refine ⟨hfault, htold, ?_, ?_⟩
    · rw [show applied.widths = [] from hwidths]
      rfl
    · rw [harranged]
  · rintro front newline back rfl hfront hkind hwritable
    exact Layout.told_apply_of_unwritable stop hfront hkind hwritable

/-- A text, a number and nothing in the place of newlines, and a number that is too long. -/
theorem layout_of_any_entries_number :
    let line : Token := { kind := .newline, span := ⟨0, 5⟩, value := .text "\n\n   " }
    let error : LexError := { kind := .unrecognizedToken, span := ⟨5, 6⟩, text := "#" }
    let number : Token := { kind := .newline, span := ⟨6, 8⟩, value := .number 42 }
    let nothing : Token := { kind := .newline, span := ⟨8, 9⟩ }
    let long : Token := { number with value := .number (10 ^ Text.digitLimit) }
    let applied := Layout.apply 2 [] [.token line, .error error, .token number, .token nothing]
    let cut := Layout.apply 2 [] [.token line, .token long, .token nothing]
    applied.fault = none ∧
      applied.told =
        [(.token line, {0}), (.token ⟨.indentation, ⟨5, 5⟩, .nothing⟩, {0, 3}),
          (.error error, {0, 3}), (.token number, {0, 3}),
          (.token ⟨.deindentation, ⟨8, 8⟩, .nothing⟩, {0}),
          (.error ⟨.inconsistentDedent, ⟨8, 8⟩, ""⟩, {0}), (.token nothing, {0}),
          (.token ⟨.indentation, ⟨9, 9⟩, .nothing⟩, {0, 4}),
          (.token ⟨.deindentation, ⟨2, 2⟩, .nothing⟩, {0})] ∧
      applied.widths.levels = [0] ∧
      cut.fault = some .tooManyDigits ∧
      cut.told =
        [(.token line, {0}), (.token ⟨.indentation, ⟨5, 5⟩, .nothing⟩, {0, 3}),
          (.token long, {0, 3})] ∧
      cut.widths.opened = {0, 3} := by
  intro line error number nothing long applied cut
  have hlong : long.value.isWritable = false :=
    Bool.eq_false_iff.2 fun h => Text.not_convertible_limit (Text.isWritable_iff.1 h)
  have hentries : ∀ entry ∈ [.token line, .error error, .token number, .token nothing],
      Layout.Measurable entry :=
    fun entry hentry => Layout.measurable_of_isWritable (by revert entry; decide)
  have hfront : ∀ entry ∈ [.token line], Layout.Measurable entry :=
    fun entry hentry => Layout.measurable_of_isWritable (by revert entry; decide)
  obtain ⟨hfault, htold, hlevels, -⟩ := (layout_of_any_entries "é" _).1 hentries
  obtain ⟨hcut, hcutTold, hcutWidths⟩ :=
    (layout_of_any_entries "é" _).2.1 _ long [.token nothing] rfl hfront rfl hlong
  refine ⟨hfault, htold.trans ?_, hlevels, hcut, hcutTold.trans ?_, hcutWidths.trans ?_⟩
  · decide +kernel
  · have hfirst : Layout.answered {0} [.token line] =
        [(.token line, {0}), (.token ⟨.indentation, ⟨5, 5⟩, .nothing⟩, {0, 3})] := by decide +kernel
    have hopened : [Entry.token line].foldl Layout.openedBehind {0} = {0, 3} := by decide +kernel
    rw [hfirst, hopened]
    rfl
  · decide +kernel

end Offside
