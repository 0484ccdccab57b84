import Offside.Proofs.CommandModes
import Offside.Proofs.LosslessSpans
import Offside.Proofs.RecordRoundTrip

/-!
# Printed lines

A permissive run prints the stream with one line for each entry. What an entry shows of the source
is quoted, so none of its characters ends a line: `Text.oneLine_quoted`. The bounds on a line are
offsets into the file, between which the lexeme of the entry stands. `printed_lines` says both, and
that the stream can be read back where it is printed as JSON.
-/

namespace Offside

namespace Text

/-! ### Texts on one line -/

def lineBreaks : List Char :=
  ['\n', '\r', '\x0b', '\x0c', '\x1c', '\x1d', '\x1e', '\u0085', '\u2028', '\u2029']

def OneLine (text : String) : Prop :=
  ∀ c ∈ text.toList, c ∉ lineBreaks

instance (text : String) : Decidable (OneLine text) :=
  List.decidableBAll (· ∉ lineBreaks) text.toList

theorem OneLine.append {first second : String} (hfirst : OneLine first)
    (hsecond : OneLine second) : OneLine (first ++ second) := by
  intro c hc
  rw [String.toList_append, List.mem_append] at hc
  obtain hc | hc := hc
  · exact hfirst c hc
  · exact hsecond c hc

theorem not_mem_lineBreaks {p : Char → Bool} (hbreaks : lineBreaks.any p = false) {c : Char}
    (hc : p c = true) : c ∉ lineBreaks := by
  intro hbreak
  rw [List.any_eq_true.2 ⟨c, hbreak, hc⟩] at hbreaks
  cases hbreaks

theorem any_isPrintable_lineBreaks : lineBreaks.any isPrintable = false := by
  decide +kernel

theorem oneLine_toString (n : Int) : OneLine (toString n) := by
  intro c hc
  obtain hdigit | rfl := Json.isDigit_or_eq_of_mem_toString hc
  · exact not_mem_lineBreaks (by decide) hdigit
  · decide

/-! ### Quoted texts -/

theorem oneLine_hexDigits (width n : Nat) : ∀ c ∈ hexDigits width n, c ∉ lineBreaks := by
  induction width generalizing n with
  | zero => exact nofun
  | succ width ih =>
    have hdigits : ∀ digit < 16, Nat.digitChar digit ∉ lineBreaks := by decide
    intro c hc
    rw [hexDigits, List.mem_append, List.mem_singleton] at hc
    obtain hc | rfl := hc
    · exact ih (n / 16) c hc
    · exact hdigits _ (Nat.mod_lt n (by decide))

/-- A line break is not printable, so it is escaped, and what an escape is written with is none. -/
theorem oneLine_escaped {quote : Char} (hquote : quote ∉ lineBreaks) (c : Char) :
    ∀ d ∈ escaped quote c, d ∉ lineBreaks := by
  have hescape {mark : Char} (hmark : mark ∉ lineBreaks) {digits : List Char}
      (hdigits : ∀ d ∈ digits, d ∉ lineBreaks) : ∀ d ∈ '\\' :: mark :: digits, d ∉ lineBreaks := by
    rw [List.forall_mem_cons, List.forall_mem_cons]
    exact ⟨by decide, hmark, hdigits⟩
  unfold escaped
  split_ifs with hspecial hnewline hreturn htab hprintable
  · obtain rfl | rfl := hspecial
    · exact hescape hquote nofun
    · exact hescape (by decide) nofun
  · exact hescape (by decide) nofun
  · exact hescape (by decide) nofun
  · exact hescape (by decide) nofun
  · rw [List.forall_mem_singleton]
    exact not_mem_lineBreaks any_isPrintable_lineBreaks hprintable
  all_goals exact hescape (by decide) (oneLine_hexDigits _ _)

theorem quoteFor_not_mem (text : List Char) : quoteFor text ∉ lineBreaks := by
  unfold quoteFor
  split <;> decide

theorem oneLine_quoted (text : String) : OneLine (quoted text) := by
  have hquote := quoteFor_not_mem text.toList
  intro c hc
  rw [quoted, String.toList_ofList, List.mem_append, List.mem_cons, List.mem_flatMap,
    List.mem_singleton] at hc
  obtain (rfl | ⟨d, -, hc⟩) | rfl := hc
  · exact hquote
  · exact oneLine_escaped hquote d c hc
  · exact hquote

end Text

/-! ### Entries on one line -/

theorem TokenKind.oneLine_name (kind : TokenKind) : Text.OneLine kind.name := by
  cases kind <;> decide +kernel

theorem ErrorKind.oneLine_name (kind : ErrorKind) : Text.OneLine kind.name := by
  cases kind <;> decide +kernel

theorem Payload.oneLine_debug (payload : Payload) : Text.OneLine payload.debug := by
  cases payload with
  | nothing => decide +kernel
  | text s => exact Text.oneLine_quoted s
  | number n => exact Text.oneLine_toString n

theorem Token.oneLine_debug (token : Token) : Text.OneLine token.debug := by
  have hname : Text.OneLine ("Token(" ++ token.kind.name) :=
    .append (by decide +kernel) token.kind.oneLine_name
  rw [debug]
  split
  · have hvalue : Text.OneLine ("Token(" ++ token.kind.name ++ ", " ++ token.value.debug) :=
      (hname.append (by decide +kernel)).append token.value.oneLine_debug
    exact hvalue.append (by decide +kernel)
  · exact hname.append (by decide +kernel)

theorem LexError.oneLine_debug (error : LexError) : Text.OneLine error.debug := by
  have hname : Text.OneLine ("LexError(" ++ error.kind.name) :=
    .append (by decide +kernel) error.kind.oneLine_name
  rw [debug]
  split
  · exact hname.append (by decide +kernel)
  · have htext : Text.OneLine
        ("LexError(" ++ error.kind.name ++ ", " ++ Text.quoted error.text) :=
      (hname.append (by decide +kernel)).append (Text.oneLine_quoted error.text)
    exact htext.append (by decide +kernel)

theorem Entry.oneLine_debug (entry : Entry) : Text.OneLine entry.debug := by
  cases entry with
  | token token => exact token.oneLine_debug
  | error error => exact error.oneLine_debug

theorem Span.oneLine_render (span : Span) : Text.OneLine span.render :=
  ((Text.oneLine_toString span.start).append (by decide +kernel)).append
    (Text.oneLine_toString span.stop)

/-! ### Lexemes in a file -/

/-- The span of an entry marks a lexeme in the bytes of a file. Only what layout puts in marks
none. -/
structure Entry.Marks (bytes : List UInt8) (lexeme : List Char) (entry : Entry) : Prop where
  start_nonneg : 0 ≤ entry.span.start
  start_le_stop : entry.span.start ≤ entry.span.stop
  stop_le : entry.span.stop ≤ bytes.length
  bytes_eq : (bytes.take entry.span.stop.toNat).drop entry.span.start.toNat = Utf8.encode lexeme
  spelled : entry.isRaw = true → entry.Spelled lexeme
  eq_nil_iff : lexeme = [] ↔ entry.isRaw = false

theorem exists_marks_of_lex {settings : Settings} {source : String} {file : Option String}
    {entries : List Entry} (hstrict : settings.isStrict = false)
    (h : lex settings source file = .ok entries) {entry : Entry} (hentry : entry ∈ entries) :
    ∃ lexeme, entry.Marks (Utf8.encode source.toList) lexeme := by
  have hwithin := within_of_lex h entry hentry
  have hempty := isEmpty_span_iff_of_lex h entry hentry
  have hlength : entry.span.stop ≤ (Utf8.encode source.toList).length := by
    rw [Utf8.length_encode]
    exact hwithin.stop_le
  cases hraw : entry.isRaw with
  | true =>
    have hmem : entry ∈ rawEntries entries := List.mem_filter.2 ⟨hentry, hraw⟩
    obtain ⟨i, j, hlt, hle, hspan, hspelled⟩ := (tiled_of_lex hstrict h).exists_bounds hmem
    have hne : (source.toList.take j).drop i ≠ [] := by
      rw [← List.length_pos_iff, List.length_drop, List.length_take]
      omega
    refine ⟨_, hwithin.start_nonneg, hwithin.start_le_stop, hlength, ?_, fun _ => hspelled, ?_⟩
    · rw [hspan]
      exact Utf8.drop_take_encode source.toList (Nat.le_of_lt hlt)
    · rw [hraw]
      exact ⟨fun hnil => absurd hnil hne, nofun⟩
  | false =>
    have hspan : entry.span.start = entry.span.stop := beq_iff_eq.1 (hempty.2 hraw)
    refine ⟨[], hwithin.start_nonneg, hwithin.start_le_stop, hlength, ?_, ?_, ?_⟩
    · rw [hspan, Utf8.encode_nil, List.drop_eq_nil_iff]
      exact List.length_take_le _ _
    · rw [hraw]
      exact nofun
    · exact ⟨fun _ => hraw, fun _ => rfl⟩

namespace CommandLine

/-- **Printed lines.** A permissive run over a file prints a line for each entry of its stream, in
order, whatever characters the file is made of: the entry, and the bounds between which its lexeme
stands in the file. Where JSON is asked for, the stream is read back from what is printed, as long
as offsets into the file can be. -/
theorem printed_lines (channel : String) {path source : String} {host : Host}
    {arguments : List String} {options : Options} {bytes : List UInt8} {entries : List Entry}
    (hnames : Names host arguments options path bytes source)
    (hpermissive : options.strict = false) (hlex : lex {} source (some path) = .ok entries) :
    let stdout := (run channel host arguments).stdout
    let line (entry : Entry) :=
      entry.debug ++ ": " ++ (toString entry.span.start ++ ".." ++ toString entry.span.stop)
    (options.json = false →
      stdout = String.join (entries.map fun entry => line entry ++ "\n") ∧
        ∀ entry ∈ entries, Text.OneLine (line entry) ∧ ∃ lexeme, entry.Marks bytes lexeme) ∧
      (options.json = true → bytes.length < 10 ^ Text.digitLimit →
        readEntries? stdout = some entries) := by
  intro stdout line
  have hbytes : Utf8.encode source.toList = bytes := Utf8.encode_of_decode hnames.decode_eq
  have hstdout : stdout = streamText options.json entries := by
    change (run channel host arguments).stdout = _
    rw [hnames.run_eq, reportSource_of_ok (lex_settings_of_goes hlex (.inl hpermissive))]
  constructor
  · intro hplain
    rw [hplain] at hstdout
    refine ⟨hstdout, fun entry hentry => ⟨?_, ?_⟩⟩
    · exact (entry.oneLine_debug.append (by decide +kernel)).append entry.span.oneLine_render
    · rw [← hbytes]
      exact exists_marks_of_lex isStrict_default hlex hentry
  · intro hjson hlength
    rw [hjson] at hstdout
    rw [← hbytes, Utf8.length_encode] at hlength
    have hspace : ∀ c ∈ "\n".toList, Json.isSpace c = true := by simp [Json.isSpace]
    have hread := readRecords_printEntries_append none (storable_of_lexed hlength (.inl hlex))
      hspace
    rw [hstdout, streamText, if_pos rfl, readEntries?, hread]
    exact Record.mapM_typed? entries

/-- A character of two bytes, a line separator, which is escaped, and a block that is opened and
closed. -/
theorem printed_lines_separator :
    let source := "x\n\té\u2028"
    let bytes := Utf8.encode source.toList
    let host : Host :=
      { edition := .late
        files := fun path => if path = "/tmp/a" then .ok bytes else .error ⟨21, "Is a directory"⟩ }
    let entries : List Entry :=
      [.token ⟨.identifier, ⟨0, 1⟩, .text "x"⟩, .token ⟨.newline, ⟨1, 3⟩, .text "\n\t"⟩,
        Layout.indentation 3, .error ⟨.unrecognizedToken, ⟨3, 5⟩, "é"⟩,
        .error ⟨.unrecognizedToken, ⟨5, 8⟩, "\u2028"⟩, Layout.deindentation 8]
    let lines :=
      ["Token(IDENTIFIER, 'x'): 0..1", "Token(NEWLINE): 1..3", "Token(INDENTATION): 3..3",
        "LexError(UNRECOGNIZED_TOKEN, 'é'): 3..5", "LexError(UNRECOGNIZED_TOKEN, '\\u2028'): 5..8",
        "Token(DEINDENTATION): 8..8"]
    let plain : Options := { input := some "/tmp/a" }
    let json : Options := { json := true, input := some "/tmp/a" }
    Names host ["/tmp/a"] plain "/tmp/a" bytes source ∧
      Names host ["--json", "/tmp/a"] json "/tmp/a" bytes source ∧
      lex {} source (some "/tmp/a") = .ok entries ∧
      (run channel host ["/tmp/a"]).stdout = String.join (lines.map (· ++ "\n")) ∧
      (∀ entry ∈ entries, ∃ lexeme, entry.Marks bytes lexeme) ∧
      readEntries? (run channel host ["--json", "/tmp/a"]).stdout = some entries := by
  intro source bytes host entries lines plain json
  have hplain : Names host ["/tmp/a"] plain "/tmp/a" bytes source :=
    ⟨by cbv, rfl, by cbv, Utf8.decode_encode _⟩
  have hjson : Names host ["--json", "/tmp/a"] json "/tmp/a" bytes source :=
    ⟨by cbv, rfl, by cbv, Utf8.decode_encode _⟩
  have hlex : lex {} source (some "/tmp/a") = .ok entries := by cbv
  have hsize : bytes.length < 10 ^ Text.digitLimit :=
    calc bytes.length = Utf8.size source.toList := Utf8.length_encode _
      _ < 10 ^ 1 := by decide +kernel
      _ ≤ 10 ^ Text.digitLimit := Nat.pow_le_pow_right (by decide) (by decide)
  have hlines : String.join (entries.map entryLine) = String.join (lines.map (· ++ "\n")) := by
    decide +kernel
  obtain ⟨hstdout, hmarks⟩ := (printed_lines channel hplain rfl hlex).1 rfl
  have hread := (printed_lines channel hjson rfl hlex).2 rfl hsize
  exact ⟨hplain, hjson, hlex, hstdout.trans hlines, fun entry hentry => (hmarks entry hentry).2,
    hread⟩

end CommandLine

end Offside
