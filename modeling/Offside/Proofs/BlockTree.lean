import Offside.Proofs.Arrangement
import Offside.Proofs.Readings

/-!
# Block trees

A program as a tree of blocks: each statement is a line and may have a body, which is a block again
and stands deeper. A tree is laid out as text line by line, and flattened in pre-order to the tokens
that its layout stands for. `lex_render`: lexing the text gives the flattened tree.
-/

namespace Offside

open Lexeme (Reading)

/-! ### Trees -/

/-- What a line of a block of the given width begins with. -/
structure Indent (width : Nat) where
  blanks : List Char
  blank : ∀ c ∈ blanks, isBlank c = true
  length_eq : blanks.length = width

def Indent.none : Indent 0 :=
  ⟨[], by simp, rfl⟩

theorem Indent.blanks_eq_nil (indent : Indent 0) : indent.blanks = [] :=
  List.length_eq_zero_iff.1 indent.length_eq

/-- The content of a line: a text on one line that begins with no blank and scans without errors. -/
structure Line (settings : Settings) where
  text : List Char
  entries : List Entry
  no_newline : '\n' ∉ text
  begins : ∃ first rest, text = first :: rest ∧ isBlank first = false
  scans : scan settings (String.ofList text) = .ok entries
  clean : errorsIn entries = []

/-- A list of statements whose lines all stand at one width. The body of a statement stands deeper,
at any width, and is empty when the statement has none. -/
inductive Block (settings : Settings) : Nat → Type where
  | empty {width : Nat} : Block settings width
  | statement {width inner : Nat} (indent : Indent width) (line : Line settings)
      (deeper : width < inner) (body : Block settings inner) (rest : Block settings width) :
      Block settings width

namespace Line

variable {settings : Settings}

def readings (line : Line settings) : List Reading :=
  line.entries.map Entry.reading

theorem isError_reading (line : Line settings) {reading : Reading}
    (hreading : reading ∈ line.readings) : reading.isError = false :=
  errorsIn_eq_nil_iff.1 line.clean reading hreading

end Line

namespace Block

variable {settings : Settings} {width : Nat}

def isEmpty : Block settings width → Bool
  | empty => true
  | statement .. => false

def lines : {width : Nat} → Block settings width → List (List Char)
  | _, empty => []
  | _, statement indent line _ body rest =>
    (indent.blanks ++ line.text) :: (body.lines ++ rest.lines)

/-- The text of a block, with or without a newline at its end. -/
def render (final : Bool) (block : Block settings width) : List Char :=
  ['\n'].intercalate block.lines ++ if final then ['\n'] else []

def newline (blanks : List Char) : Reading :=
  .token .newline (.text (String.ofList ('\n' :: blanks)))

def opening : Reading :=
  .token .indentation .nothing

def closing : Reading :=
  .token .deindentation .nothing

/-- What the body of a statement gives and owes: it closes at its end, if there is one. -/
def enclose (isEmpty : Bool) (body : List Reading × List Reading) : List Reading × List Reading :=
  if isEmpty then ([], []) else (body.1, body.2 ++ [closing])

/-- A block in pre-order, with a newline in front of each line, and what is owed behind the next
newline. Behind the first newline stands what was owed before. A body owes its opening at its
beginning and its closing at its end. -/
def flatten : {width : Nat} → (owed : List Reading) → Block settings width →
    List Reading × List Reading
  | _, owed, empty => ([], owed)
  | _, owed, statement indent line _ body rest =>
    let (inner, closed) := enclose body.isEmpty (body.flatten [opening])
    let (others, left) := rest.flatten closed
    (newline indent.blanks :: owed ++ line.readings ++ inner ++ others, left)

def flattenBody (body : Block settings width) : List Reading × List Reading :=
  enclose body.isEmpty (body.flatten [opening])

theorem flatten_statement {inner : Nat} (owed : List Reading) (indent : Indent width)
    (line : Line settings) (deeper : width < inner) (body : Block settings inner)
    (rest : Block settings width) :
    (statement indent line deeper body rest).flatten owed =
      (newline indent.blanks :: owed ++ line.readings ++ body.flattenBody.1 ++
        (rest.flatten body.flattenBody.2).1, (rest.flatten body.flattenBody.2).2) := rfl

/-- A whole tree. No newline stands in front of the first line, and what is owed in the end comes
last. -/
def stream (final : Bool) (block : Block settings 0) : List Reading :=
  (block.flatten []).1.tail ++ (if final then [newline []] else []) ++ (block.flatten []).2

end Block

/-! ### The raw stream of a tree -/

section Scanning

variable {settings : Settings} {width : Nat} {suffix : List Char}

theorem ne_newline_of_mem_stream {distinguish : Bool} {text : List Char} (htext : '\n' ∉ text)
    (position offset : Nat) {entry : Entry}
    (hentry : entry ∈ (Scanner.stream distinguish ⟨text, position, offset⟩).entries)
    (value : Payload) : entry.reading ≠ .token .newline value := by
  obtain ⟨before, after, hsplit⟩ := List.append_of_mem hentry
  obtain ⟨front, first, rest, reading, -, start, rfl, -, hreading, -, rfl, -⟩ :=
    Scanner.split_stream hsplit
  rw [Reading.reading_entry]
  refine ne_newline_of_classify ?_ hreading value
  rintro rfl
  exact htext (List.mem_append_right front List.mem_cons_self)

theorem munch_newline_indent (indent : Indent width) (line : Line settings) :
    Lexeme.munch '\n' (indent.blanks ++ line.text ++ suffix) =
      ('\n' :: indent.blanks, line.text ++ suffix) := by
  obtain ⟨first, rest, htext, hblank⟩ := line.begins
  have hfirst : isLayout first = false := by
    have hne : first ≠ '\n' := by
      rintro rfl
      exact line.no_newline (htext ▸ List.mem_cons_self)
    simp [isLayout, hblank, hne]
  have hindent : ∀ c ∈ indent.blanks, isLayout c = true :=
    fun c hc => isLayout_of_isBlank (indent.blank c hc)
  rw [Lexeme.munch, if_pos rfl, htext, List.append_assoc, List.takeWhile_append_of_pos hindent,
    List.dropWhile_append_of_pos hindent]
  simp [hfirst]

theorem Line.stream_eq (line : Line settings) :
    Scanner.stream settings.distinguishes ⟨line.text, 0, 0⟩ = ⟨line.entries, none⟩ := by
  have hscan := scan_eq_ok_iff.1 line.scans
  rwa [rawStream, Scanner.ofSource, String.toList_ofList] at hscan

/-- The content of a line scans anywhere as it does alone. -/
theorem stream_line (line : Line settings) (hsuffix : ∀ c ∈ suffix.head?, c = '\n')
    (position offset : Nat) :
    Scanner.stream settings.distinguishes ⟨line.text ++ suffix, position, offset⟩ =
      (Scanner.stream settings.distinguishes
          ⟨suffix, position + line.text.length, offset + Utf8.size line.text⟩).prepend
        (line.entries.map (Entry.shift offset)) := by
  have hmoved : Scanner.stream settings.distinguishes ⟨line.text, position, offset⟩ =
      ⟨line.entries.map (Entry.shift offset), none⟩ := by
    have hshift : Scanner.stream settings.distinguishes ⟨line.text, position, 0 + offset⟩ = _ :=
      Scanner.stream_shift line.text position 0 0 offset
    rw [Nat.zero_add, line.stream_eq] at hshift
    exact hshift
  rw [Scanner.stream_append (seamless_of_newline line.no_newline hsuffix) position offset
    (congrArg RawStream.fault hmoved), hmoved]

theorem Line.ne_newline (line : Line settings) {reading : Reading}
    (hreading : reading ∈ line.readings) (value : Payload) : reading ≠ .token .newline value := by
  obtain ⟨entry, hentry, rfl⟩ := List.mem_map.1 hreading
  have hmem : entry ∈ (Scanner.stream settings.distinguishes ⟨line.text, 0, 0⟩).entries := by
    rw [line.stream_eq]
    exact hentry
  exact ne_newline_of_mem_stream line.no_newline 0 0 hmem value

namespace Block

def text (block : Block settings width) : List Char :=
  block.lines.flatMap ('\n' :: ·)

def raw : {width : Nat} → Block settings width → List Reading
  | _, empty => []
  | _, statement indent line _ body rest =>
    newline indent.blanks :: (line.readings ++ body.raw ++ rest.raw)

theorem text_statement {inner : Nat} (indent : Indent width) (line : Line settings)
    (deeper : width < inner) (body : Block settings inner) (rest : Block settings width) :
    (statement indent line deeper body rest).text =
      '\n' :: (indent.blanks ++ line.text ++ (body.text ++ rest.text)) := by
  simp [text, lines]

theorem head?_text_append (block : Block settings width) (hsuffix : ∀ c ∈ suffix.head?, c = '\n') :
    ∀ c ∈ (block.text ++ suffix).head?, c = '\n' := by
  cases block with
  | empty => exact hsuffix
  | statement indent line deeper body rest =>
    rw [text_statement]
    intro c hc
    exact (Option.some.inj hc).symm

theorem stream_statement (indent : Indent width) (line : Line settings)
    (hsuffix : ∀ c ∈ suffix.head?, c = '\n') (position offset : Nat) :
    ∃ entries position' offset',
      entries.map Entry.reading = newline indent.blanks :: line.readings ∧
      Scanner.stream settings.distinguishes
          ⟨'\n' :: (indent.blanks ++ line.text ++ suffix), position, offset⟩ =
        (Scanner.stream settings.distinguishes ⟨suffix, position', offset'⟩).prepend entries := by
  have hmunch : Lexeme.munch '\n' (indent.blanks ++ line.text ++ suffix) = _ :=
    munch_newline_indent indent line
  have hreading : Lexeme.classify settings.distinguishes '\n'
      (Lexeme.munch '\n' (indent.blanks ++ line.text ++ suffix)).1 =
        .ok (newline indent.blanks) := by
    rw [hmunch]
    rfl
  rw [Scanner.stream_lexeme rfl hreading, hmunch, stream_line line hsuffix,
    RawStream.prepend_prepend]
  refine ⟨_, _, _, ?_, rfl⟩
  simp [Line.readings]

/-- A block scans to its raw readings, whatever line or end follows it. -/
theorem stream_text (block : Block settings width) (hsuffix : ∀ c ∈ suffix.head?, c = '\n')
    (position offset : Nat) :
    ∃ entries position' offset', entries.map Entry.reading = block.raw ∧
      Scanner.stream settings.distinguishes ⟨block.text ++ suffix, position, offset⟩ =
        (Scanner.stream settings.distinguishes ⟨suffix, position', offset'⟩).prepend entries := by
  induction block generalizing suffix position offset with
  | empty => exact ⟨[], position, offset, rfl, rfl⟩
  | statement indent line deeper body rest ihBody ihRest =>
    have hrest := rest.head?_text_append hsuffix
    obtain ⟨first, position₁, offset₁, hfirst, hstream⟩ :=
      stream_statement indent line (body.head?_text_append hrest) position offset
    obtain ⟨inner, position₂, offset₂, hinner, hstream₂⟩ := ihBody hrest position₁ offset₁
    obtain ⟨others, position₃, offset₃, hothers, hstream₃⟩ := ihRest hsuffix position₂ offset₂
    refine ⟨first ++ inner ++ others, position₃, offset₃, ?_, ?_⟩
    · simp [raw, hfirst, hinner, hothers]
    · have hassoc : (statement indent line deeper body rest).text ++ suffix =
          '\n' :: (indent.blanks ++ line.text ++ (body.text ++ (rest.text ++ suffix))) := by
        simp [text_statement]
      rw [hassoc, hstream, hstream₂, hstream₃, RawStream.prepend_prepend,
        RawStream.prepend_prepend]

end Block

end Scanning

/-! ### The layout of a tree -/

section Arranging

variable {widths base : Widths} {width : Nat} {owed : List Reading}

def arranged (place : Int) (widths : Widths) (entries : List Entry) : List Reading :=
  (Layout.arrange place widths entries).1.map fun due => due.1.reading

/-- What the blocks that are open owe behind a newline in front of a line of some width, and the
blocks that are open then. -/
def Owes (widths : Widths) (width : Nat) (owed : List Reading) (base : Widths) : Prop :=
  ∀ place,
    (Layout.settleAll widths (.compare width place)).1.map (fun due => due.1.reading) = owed ∧
      (Layout.settleAll widths (.compare width place)).2 = base

theorem owes_nothing (hbase : base.innermost = width) : Owes base width [] base := by
  intro place
  rw [Layout.settleAll_of_none (by simp [Layout.settle, hbase])]
  exact ⟨rfl, rfl⟩

theorem owes_opening (hdeeper : base.innermost < width) :
    Owes base width [Block.opening] (width :: base) := by
  intro place
  have hsettle : Layout.settle base (.compare width place) =
      some (Layout.indentation place, .seek, width :: base) := by
    rw [Layout.settle, if_pos hdeeper]
  rw [Layout.settleAll_of_some hsettle, Layout.settleAll_of_none rfl]
  exact ⟨rfl, rfl⟩

theorem settleAll_close {opened : Widths} (hopened : ∀ inner ∈ opened, width < inner)
    (hbase : base.innermost = width) (place : Int) :
    (Layout.settleAll (opened ++ base) (.close width place)).1.map (fun due => due.1.reading) =
        List.replicate opened.length Block.closing ∧
      (Layout.settleAll (opened ++ base) (.close width place)).2 = base := by
  induction opened with
  | nil =>
    rw [List.nil_append, Layout.settleAll_of_none (by simp [Layout.settle, hbase])]
    exact ⟨rfl, rfl⟩
  | cons inner opened ih =>
    rw [List.forall_mem_cons] at hopened
    have hsettle : Layout.settle (inner :: opened ++ base) (.close width place) =
        some (Layout.deindentation place, .close width place, opened ++ base) := by
      have hlt : width < Widths.innermost (inner :: opened ++ base) := hopened.1
      rw [Layout.settle, if_pos hlt]
      rfl
    obtain ⟨hreadings, hwidths⟩ := ih hopened.2
    rw [Layout.settleAll_of_some hsettle]
    refine ⟨?_, hwidths⟩
    rw [List.map_cons, hreadings]
    rfl

theorem owes_closing {opened : Widths} (hopened : ∀ inner ∈ opened, width < inner)
    (hbase : base.innermost = width) :
    Owes (opened ++ base) width (List.replicate opened.length Block.closing) base := by
  cases opened with
  | nil => exact owes_nothing hbase
  | cons inner opened =>
    intro place
    rw [List.forall_mem_cons] at hopened
    have hsettle : Layout.settle (inner :: opened ++ base) (.compare width place) =
        some (Layout.deindentation place, .close width place, opened ++ base) := by
      have hlt : width < Widths.innermost (inner :: opened ++ base) := hopened.1
      rw [Layout.settle, if_neg (Nat.not_lt_of_lt hlt), if_pos hlt]
      rfl
    obtain ⟨hreadings, hwidths⟩ := settleAll_close hopened.2 hbase place
    rw [Layout.settleAll_of_some hsettle]
    refine ⟨?_, hwidths⟩
    rw [List.map_cons, hreadings]
    rfl

theorem lineWidth_newline {blanks : List Char} (hblanks : ∀ c ∈ blanks, isBlank c = true) :
    Layout.lineWidth (.text (String.ofList ('\n' :: blanks))) = blanks.length := by
  have hline : '\n' ∉ blanks := fun hmem => absurd (hblanks _ hmem) (by decide)
  rw [Layout.lineWidth_text, String.toList_ofList, ← List.nil_append ('\n' :: blanks),
    lastLine_append hline]

theorem arranged_cons (place : Int) (entry : Entry) (entries : List Entry) :
    arranged place widths (entry :: entries) =
      entry.reading ::
        ((Layout.settleAll widths (Layout.after entry)).1.map (fun due => due.1.reading) ++
          arranged place (Layout.settleAll widths (Layout.after entry)).2 entries) := by
  rw [arranged, Layout.arrange_cons, List.map_cons, List.map_append]
  rfl

theorem arranged_newline {entry : Entry} {indent : Indent width}
    (hentry : entry.reading = Block.newline indent.blanks) (howes : Owes widths width owed base)
    (place : Int) (entries : List Entry) :
    arranged place widths (entry :: entries) =
      Block.newline indent.blanks :: owed ++ arranged place base entries := by
  have hafter : ∃ stop, Layout.after entry = .compare width stop := by
    cases entry with
    | error e => cases hentry
    | token t =>
      obtain ⟨kind, span, value⟩ := t
      cases hentry
      refine ⟨span.stop, ?_⟩
      rw [Layout.after, lineWidth_newline indent.blank, indent.length_eq]
  obtain ⟨stop, hstop⟩ := hafter
  obtain ⟨hreadings, hwidths⟩ := howes stop
  rw [arranged_cons, hstop, hreadings, hwidths, hentry]
  rfl

theorem after_eq_seek {entry : Entry} (hentry : ∀ value, entry.reading ≠ .token .newline value) :
    Layout.after entry = .seek := by
  unfold Layout.after
  split
  · exact absurd rfl (hentry _)
  · rfl

theorem arranged_append {entries : List Entry}
    (hentries : ∀ entry ∈ entries, ∀ value, entry.reading ≠ .token .newline value) (place : Int)
    (others : List Entry) :
    arranged place widths (entries ++ others) =
      entries.map Entry.reading ++ arranged place widths others := by
  induction entries with
  | nil => rfl
  | cons entry entries ih =>
    rw [List.forall_mem_cons] at hentries
    rw [List.cons_append, arranged_cons, after_eq_seek hentries.1, Layout.settleAll_of_none rfl,
      List.map_nil, List.nil_append, ih hentries.2]
    rfl

theorem eq_nil_of_isEmpty {settings : Settings} {block : Block settings width}
    {entries : List Entry} (hblock : block.isEmpty = true)
    (hentries : entries.map Entry.reading = block.raw) : entries = [] := by
  cases block with
  | empty => exact List.map_eq_nil_iff.1 hentries
  | statement => cases hblock

/-- Entries that give some readings between two states of the open blocks, whatever follows. -/
def Gives (entries : List Entry) (widths : Widths) (readings : List Reading) (final : Widths) :
    Prop :=
  ∀ place others,
    arranged place widths (entries ++ others) = readings ++ arranged place final others

/-- Behind a block, some of its bodies are left open, and it owes a closing for each of them. -/
def GivesOpen (entries : List Entry) (widths base : Widths) (width : Nat)
    (given : List Reading × List Reading) : Prop :=
  ∃ opened : Widths, (∀ inner ∈ opened, width < inner) ∧
    given.2 = List.replicate opened.length Block.closing ∧
    Gives entries widths given.1 (opened ++ base)

variable {settings : Settings} {entries : List Entry}

theorem gives_line (line : Line settings) (hentries : entries.map Entry.reading = line.readings) :
    Gives entries base line.readings base := by
  intro place others
  rw [← hentries]
  refine arranged_append (fun entry hentry => ?_) place others
  exact line.ne_newline (hentries ▸ List.mem_map_of_mem hentry)

/-- Lexing gives a block flattened, behind any newline in front of a line of its width. -/
def Lays (block : Block settings width) : Prop :=
  ∀ {widths base : Widths} {owed : List Reading} {entries : List Entry},
    entries.map Entry.reading = block.raw → Owes widths width owed base → base.innermost = width →
      block.isEmpty = false → GivesOpen entries widths base width (block.flatten owed)

theorem Lays.body {inner : Nat} {body : Block settings inner} (h : Lays body)
    (hentries : entries.map Entry.reading = body.raw) (hdeeper : width < inner)
    (hbase : base.innermost = width) : GivesOpen entries base base width body.flattenBody := by
  cases hempty : body.isEmpty with
  | true =>
    rw [eq_nil_of_isEmpty hempty hentries, Block.flattenBody, Block.enclose, if_pos hempty]
    exact ⟨[], by simp, rfl, fun _ _ => rfl⟩
  | false =>
    obtain ⟨opened, hopened, hclosing, hgives⟩ :=
      h hentries (owes_opening (hbase ▸ hdeeper)) rfl hempty
    refine ⟨opened ++ [inner], ?_, ?_, ?_⟩
    · intro width' hmem
      obtain hmem | hmem := List.mem_append.1 hmem
      · exact Nat.lt_trans hdeeper (hopened width' hmem)
      · exact List.mem_singleton.1 hmem ▸ hdeeper
    · simp [Block.flattenBody, Block.enclose, hempty, hclosing, List.replicate_succ']
    · simpa [Block.flattenBody, Block.enclose, hempty] using hgives

theorem Lays.rest {rest : Block settings width} (h : Lays rest)
    (hentries : entries.map Entry.reading = rest.raw) {opened : Widths}
    (hopened : ∀ inner ∈ opened, width < inner) (hbase : base.innermost = width) :
    GivesOpen entries (opened ++ base) base width
      (rest.flatten (List.replicate opened.length Block.closing)) := by
  cases hempty : rest.isEmpty with
  | true =>
    rw [eq_nil_of_isEmpty hempty hentries]
    cases rest with
    | empty => exact ⟨opened, hopened, rfl, fun _ _ => rfl⟩
    | statement => cases hempty
  | false => exact h hentries (owes_closing hopened hbase) hbase hempty

theorem lays (block : Block settings width) : Lays block := by
  induction block with
  | empty => exact fun _ _ _ hempty => nomatch hempty
  | @statement width inner indent line deeper body rest ihBody ihRest =>
    intro widths base owed entries hentries howes hbase _
    obtain ⟨first, tail, rfl, hfirst, htail⟩ := List.map_eq_cons_iff.1 hentries
    obtain ⟨front, restEntries, rfl, hfront, hrest⟩ := List.map_eq_append_iff.1 htail
    obtain ⟨lineEntries, bodyEntries, rfl, hline, hbody⟩ := List.map_eq_append_iff.1 hfront
    obtain ⟨opened, hopened, hclosing, hbodyGives⟩ := ihBody.body hbody deeper hbase
    have hrestGives := ihRest.rest hrest hopened hbase
    rw [← hclosing] at hrestGives
    obtain ⟨opened', hopened', hclosing', hrestGives⟩ := hrestGives
    refine ⟨opened', hopened', hclosing', fun place others => ?_⟩
    rw [Block.flatten_statement, List.cons_append, arranged_newline hfirst howes,
      List.append_assoc, List.append_assoc, gives_line line hline, hbodyGives, hrestGives]
    simp only [List.append_assoc, List.cons_append]

end Arranging

/-! ### The round trip -/

section RoundTrip

variable {settings : Settings}

theorem intercalate_newline (line : List Char) (lines : List (List Char)) :
    ['\n'].intercalate (line :: lines) = line ++ lines.flatMap ('\n' :: ·) := by
  induction lines generalizing line with
  | nil => simp
  | cons other lines ih => simp [List.intercalate_cons_cons, ih]

theorem Block.render_eq (final : Bool) (block : Block settings 0) :
    block.render final = block.text.tail ++ if final then ['\n'] else [] := by
  cases block with
  | empty => rfl
  | statement indent line deeper body rest =>
    rw [render, text, lines, intercalate_newline]
    rfl

theorem stream_end (final : Bool) (position offset : Nat) :
    ∃ entries,
      Scanner.stream settings.distinguishes ⟨if final then ['\n'] else [], position, offset⟩ =
        { entries := entries } ∧
      entries.map Entry.reading = if final then [Block.newline []] else [] := by
  cases final with
  | false => exact ⟨[], Scanner.stream_nil, rfl⟩
  | true =>
    have hreading : Lexeme.classify settings.distinguishes '\n' (Lexeme.munch '\n' []).1 =
        .ok (Block.newline []) := rfl
    rw [if_pos rfl, Scanner.stream_lexeme rfl hreading]
    exact ⟨_, congrArg (RawStream.prepend _) Scanner.stream_nil, by simp⟩

theorem rawStream_render (block : Block settings 0) (final : Bool) :
    ∃ entries, rawStream settings (String.ofList (block.render final)) = { entries := entries } ∧
      entries.map Entry.reading =
        block.raw.tail ++ if final then [Block.newline []] else [] := by
  have hend : ∀ c ∈ (if final then ['\n'] else []).head?, c = '\n' := by
    cases final <;> simp
  rw [rawStream, Scanner.ofSource, String.toList_ofList, block.render_eq]
  cases block with
  | empty => exact stream_end final 0 0
  | statement indent line deeper body rest =>
    have htext (suffix : List Char) :
        (Block.statement indent line deeper body rest).text.tail ++ suffix =
          line.text ++ (body.text ++ (rest.text ++ suffix)) := by
      simp [Block.text_statement, indent.blanks_eq_nil]
    have hafter := rest.head?_text_append hend
    obtain ⟨inner, position₁, offset₁, hinner, hbody⟩ :=
      body.stream_text hafter (0 + line.text.length) (0 + Utf8.size line.text)
    obtain ⟨others, position₂, offset₂, hothers, hrest⟩ :=
      rest.stream_text hend position₁ offset₁
    obtain ⟨last, hstream, hlast⟩ := stream_end final position₂ offset₂
    rw [htext, stream_line line (body.head?_text_append hafter), hbody, hrest, hstream]
    refine ⟨_, rfl, ?_⟩
    simp [Block.raw, Line.readings, hinner, hothers, hlast]

theorem arranged_nil (place : Int) (widths : Widths) :
    arranged place widths [] = List.replicate widths.length Block.closing := by
  rw [arranged, Layout.arrange]
  induction widths with
  | nil =>
    rw [Layout.settleAll_of_none rfl]
    rfl
  | cons width widths ih =>
    have hsettle : Layout.settle (width :: widths) (.flush place) =
        some (Layout.deindentation place, .flush place, widths) := rfl
    rw [Layout.settleAll_of_some hsettle, List.map_cons, ih]
    rfl

theorem givesOpen_front (block : Block settings 0) {front : List Entry}
    (hfront : front.map Entry.reading = block.raw.tail) :
    GivesOpen front [] [] 0 ((block.flatten []).1.tail, (block.flatten []).2) := by
  cases block with
  | empty =>
    rw [List.map_eq_nil_iff.1 hfront]
    exact ⟨[], by simp, rfl, fun _ _ => rfl⟩
  | statement indent line deeper body rest =>
    -- With a newline put in front, the tree is a block like any other.
    obtain ⟨lead, hlead⟩ : ∃ lead : Entry, lead.reading = Block.newline indent.blanks :=
      ⟨(Block.newline indent.blanks).entry (.point 0), Lexeme.Reading.reading_entry _ _⟩
    have howes : Owes [] 0 [] [] := owes_nothing rfl
    have hentries : (lead :: front).map Entry.reading =
        (Block.statement indent line deeper body rest).raw := by
      rw [List.map_cons, hlead, hfront, Block.raw, List.tail_cons]
    obtain ⟨opened, hopened, hclosing, hgives⟩ := lays _ hentries howes rfl rfl
    refine ⟨opened, hopened, hclosing, fun place back => ?_⟩
    have hall := hgives place back
    rw [List.cons_append, arranged_newline hlead howes, Block.flatten_statement] at hall
    rw [Block.flatten_statement]
    exact (List.cons.inj hall).2

theorem arranged_render (block : Block settings 0) (final : Bool) {entries : List Entry}
    (hentries : entries.map Entry.reading =
      block.raw.tail ++ if final then [Block.newline []] else []) (place : Int) :
    arranged place [] entries = block.stream final := by
  obtain ⟨front, back, rfl, hfront, hback⟩ := List.map_eq_append_iff.1 hentries
  obtain ⟨opened, hopened, hclosing, hgives⟩ := givesOpen_front block hfront
  dsimp only at hclosing hgives
  rw [hgives, Block.stream, List.append_assoc, hclosing]
  cases final with
  | false =>
    rw [List.map_eq_nil_iff.1 hback, arranged_nil, List.append_nil]
    rfl
  | true =>
    obtain ⟨last, rfl, hlast⟩ := List.map_eq_singleton_iff.1 hback
    have hnewline : last.reading = Block.newline Indent.none.blanks := hlast
    have howes : Owes (opened ++ []) 0 (List.replicate opened.length Block.closing) [] :=
      owes_closing hopened rfl
    rw [arranged_newline hnewline howes, arranged_nil]
    simp [Indent.none]

theorem Block.isError_flatten {width : Nat} (block : Block settings width) {owed : List Reading}
    (howed : ∀ reading ∈ owed, reading.isError = false) :
    ∀ reading ∈ (block.flatten owed).1 ++ (block.flatten owed).2, reading.isError = false := by
  induction block generalizing owed with
  | empty => exact howed
  | @statement width inner indent line deeper body rest ihBody ihRest =>
    have hbody : ∀ reading ∈ body.flattenBody.1 ++ body.flattenBody.2, reading.isError = false := by
      rw [flattenBody, enclose]
      split
      · simp
      · have hopening : ∀ reading ∈ [opening], reading.isError = false :=
          fun reading hmem => List.mem_singleton.1 hmem ▸ rfl
        have hinner := ihBody hopening
        simp only [List.mem_append, List.mem_singleton] at hinner ⊢
        rintro reading (hmem | hmem | rfl)
        · exact hinner reading (.inl hmem)
        · exact hinner reading (.inr hmem)
        · rfl
    have hrest := ihRest fun reading hmem => hbody reading (List.mem_append_right _ hmem)
    rw [flatten_statement]
    simp only [List.mem_append, List.mem_cons] at hbody hrest ⊢
    rintro reading (((((rfl | hmem) | hmem) | hmem) | hmem) | hmem)
    · rfl
    · exact howed reading hmem
    · exact line.isError_reading hmem
    · exact hbody reading (.inl hmem)
    · exact hrest reading (.inl hmem)
    · exact hrest reading (.inr hmem)

theorem Block.isError_stream (block : Block settings 0) (final : Bool) :
    ∀ reading ∈ block.stream final, reading.isError = false := by
  have hflatten := block.isError_flatten (List.forall_mem_nil _)
  intro reading hmem
  simp only [stream, List.mem_append] at hmem hflatten
  obtain (hmem | hmem) | hmem := hmem
  · exact hflatten reading (.inl (List.mem_of_mem_tail hmem))
  · cases final with
    | false => cases hmem
    | true => rw [List.mem_singleton.1 hmem]; rfl
  · exact hflatten reading (.inr hmem)

/-- **The off-side rule.** Lexing the text of a block tree, whatever the widths of its blocks, gives
the tree in pre-order and no error. -/
theorem lex_render (block : Block settings 0) (final : Bool) (file : Option String) :
    ∃ entries, lex settings (String.ofList (block.render final)) file = .ok entries ∧
      errorsIn entries = [] ∧ entries.map Entry.reading = block.stream final := by
  obtain ⟨raw, hraw, hreadings⟩ := rawStream_render block final
  have hstream (place : Int) : ((Layout.arrange place [] raw).1.map Prod.fst).map Entry.reading =
      block.stream final := by
    rw [List.map_map]
    exact arranged_render block final hreadings place
  have hclean (place : Int) : errorsIn ((Layout.arrange place [] raw).1.map Prod.fst) = [] := by
    rw [errorsIn_eq_nil_iff, hstream]
    exact block.isError_stream final
  exact ⟨_, lex_of_rawStream file hraw (hclean _), hclean _, hstream _⟩

/-- Blanks of either kind indent a line, and the newline keeps them as they are. -/
example : ∃ block : Block {} 0, String.ofList (block.render true) = "a\n \tb\n" ∧
    block.stream true =
      [.token .identifier (.text "a"), Block.newline [' ', '\t'], Block.opening,
        .token .identifier (.text "b"), Block.newline [], Block.closing] := by
  let outer : Line {} :=
    { text := ['a']
      entries := [.token ⟨.identifier, ⟨0, 1⟩, .text "a"⟩]
      no_newline := by decide
      begins := ⟨_, _, rfl, rfl⟩
      scans := scan_lexeme {} 'a' [] (.token .identifier (.text "a")) rfl rfl rfl
      clean := rfl }
  let inner : Line {} :=
    { text := ['b']
      entries := [.token ⟨.identifier, ⟨0, 1⟩, .text "b"⟩]
      no_newline := by decide
      begins := ⟨_, _, rfl, rfl⟩
      scans := scan_lexeme {} 'b' [] (.token .identifier (.text "b")) rfl rfl rfl
      clean := rfl }
  let indent : Indent 2 := ⟨[' ', '\t'], by simp [isBlank], rfl⟩
  let body : Block {} 2 := .statement indent inner (Nat.lt_succ_self 2) .empty .empty
  exact ⟨.statement .none outer (Nat.zero_lt_succ 1) body .empty, rfl, rfl⟩

end RoundTrip

end Offside
