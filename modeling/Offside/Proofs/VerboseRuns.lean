import Mathlib
import Offside.Proofs.CommandModes
import Offside.Proofs.Notes

/-!
# Verbose runs

A verbose run of the command writes all that a quiet one writes, and messages around it. Those from
lexing stand between the message that the file was read and the first diagnostic, and they mirror
the errors of the stream: `verbose_runs`.
-/

namespace Offside.CommandLine

/-! ### Arguments -/

def Options.loud (options : Options) : Options :=
  { options with verbose := true }

theorem Options.set_loud (options : Options) (flag : Flag) :
    options.loud.set flag = (options.set flag).map Options.loud := by
  cases flag <;> rfl

theorem Options.foldlM_set_loud (flags : List Flag) (options : Options) :
    flags.foldlM Options.set options.loud =
      (flags.foldlM Options.set options).map Options.loud := by
  induction flags generalizing options with
  | nil => rfl
  | cons flag flags ih =>
    rw [List.foldlM_cons, List.foldlM_cons, set_loud]
    cases options.set flag with
    | error refusal => rfl
    | ok options => exact ih options

def Progress.loud (progress : Progress) : Progress :=
  { progress with options := progress.options.loud }

theorem Progress.take_loud (edition : Edition) (progress : Progress) (items : List Item) :
    progress.loud.take edition items = (progress.take edition items).map Progress.loud := by
  induction progress, items using Progress.take.induct with
  | case1 progress => rfl
  | case2 progress text items ih => exact ih
  | case11 progress item items hunknown hbefore hword hafter hseparator ih =>
    have htake (progress : Progress) : progress.take edition (item :: items) =
        ((item.uses edition).mapError .usage >>= fun uses =>
          uses.flags.foldlM Options.set progress.options >>= fun options =>
            { progress with
              options := options
              extras := progress.extras ++ uses.extras }.take edition items) := by
      rw [take] <;> assumption
    rw [htake, htake]
    cases (item.uses edition).mapError Refusal.usage with
    | error refusal => rfl
    | ok uses =>
      change (uses.flags.foldlM Options.set progress.options.loud >>= _) =
        (uses.flags.foldlM Options.set progress.options >>= _).map loud
      rw [Options.foldlM_set_loud]
      cases uses.flags.foldlM Options.set progress.options with
      | error refusal => rfl
      | ok options => exact ih uses options
  -- words and separators touch no flag of the options
  | _ => simp_all [take, loud, Options.loud, addExtra]

theorem Options.ofArguments_of_items {edition : Edition} {arguments : List String}
    {list : List Item} (h : items arguments = .ok list) :
    Options.ofArguments edition arguments =
      (Progress.take edition {} list).bind fun progress =>
        if progress.extras.isEmpty then .ok progress.options
        else .error (.usage (.unrecognized progress.extras)) := by
  rw [ofArguments, h]
  rfl

theorem Options.ofArguments_eq_ok_iff {edition : Edition} {arguments : List String}
    {options : Options} :
    Options.ofArguments edition arguments = .ok options ↔
      ∃ list progress, items arguments = .ok list ∧
        Progress.take edition {} list = .ok progress ∧
        progress.extras = [] ∧ progress.options = options := by
  cases hitems : items arguments with
  | error error =>
    have hrefused : ofArguments edition arguments = .error (.usage error) := by
      rw [ofArguments, hitems]
      rfl
    simp [hrefused]
  | ok list =>
    rw [ofArguments_of_items hitems]
    cases htake : Progress.take edition {} list with
    | error refusal => simp [htake, Except.bind]
    | ok progress => cases hextras : progress.extras <;> simp [htake, hextras, Except.bind]

theorem items_verbose (arguments : List String) :
    items ("--verbose" :: arguments) = (items arguments).map (.long .verbose none :: ·) := by
  have hitem : Item.ofArgument "--verbose" = .ok (.long .verbose none) := by cbv
  rw [items, if_neg (by decide), hitem]
  cases items arguments <;> rfl

theorem Options.ofArguments_verbose {edition : Edition} {arguments : List String}
    {options : Options} (h : Options.ofArguments edition arguments = .ok options) :
    Options.ofArguments edition ("--verbose" :: arguments) = .ok options.loud := by
  obtain ⟨list, progress, hitems, htake, hextras, rfl⟩ := ofArguments_eq_ok_iff.1 h
  refine ofArguments_eq_ok_iff.2
    ⟨.long .verbose none :: list, progress.loud, ?_, ?_, hextras, rfl⟩
  · rw [items_verbose, hitems]
    rfl
  · change (Progress.loud {}).take edition list = _
    rw [Progress.take_loud, htake]
    rfl

/-! ### Reports -/

section Report

variable {channel path source : String} {options : Options} {entries : List Entry}
  {failure : Failure}

theorem verboseText_of_verbose (hverbose : options.verbose = true) (lines : List String) :
    verboseText options lines = String.join lines := by
  rw [verboseText, if_pos hverbose]

theorem progressText_of_verbose (hverbose : options.verbose = true) :
    progressText channel options path source =
      readLine channel source path ++
        String.join ((lexRun options.settings source).notes.map Journal.noteLine) := by
  rw [progressText, verboseText_of_verbose hverbose, String.join_cons]

def closingText (channel : String) : Except LexFault (List Entry) → String
  | .ok entries => lexedLine channel entries
  | .error _ => ""

/-- A verbose report is the quiet one with messages in front and one behind. -/
theorem reportSource_loud (hquiet : options.verbose = false)
    (hreturns : ∀ fault, lex options.settings source (some path) ≠ .error (.tooManyDigits fault)) :
    let report := reportSource channel options path source
    let loud := reportSource channel options.loud path source
    loud.status = report.status ∧ loud.stdout = report.stdout ∧
      loud.stderr = readLine channel source path ++
        String.join ((lexRun options.settings source).notes.map Journal.noteLine) ++
        report.stderr ++ closingText channel (lex options.settings source (some path)) := by
  have hprogress : progressText channel options.loud path source =
      readLine channel source path ++
        String.join ((lexRun options.settings source).notes.map Journal.noteLine) :=
    progressText_of_verbose rfl
  have hnothing : progressText channel options path source = "" :=
    verboseText_of_quiet hquiet _
  cases hlex : lex options.settings source (some path) with
  | ok entries =>
    have hloud : lex options.loud.settings source (some path) = .ok entries := hlex
    rw [reportSource_of_ok hlex, reportSource_of_ok hloud, hprogress, hnothing,
      verboseText_of_quiet hquiet, verboseText_of_verbose rfl]
    exact ⟨rfl, rfl, by simp [closingText, String.append_assoc]⟩
  | error fault =>
    cases fault with
    | tooManyDigits fault => exact absurd hlex (hreturns fault)
    | failure failure =>
      have hloud : lex options.loud.settings source (some path) = .error (.failure failure) := hlex
      rw [reportSource_of_failure hlex, reportSource_of_failure hloud, hprogress, hnothing]
      exact ⟨rfl, rfl, by simp [closingText, String.append_assoc]⟩

end Report

/-! ### Messages -/

/-- The message on an error that is yielded behind some entries, word for word, with the widths that
are open behind the error. A width that fits no block is that of the line behind the last newline.
-/
inductive Says (levels : List Nat) (front : List Entry) (error : LexError) : String → Prop where
  | raw (isRaw : (Entry.error error).isRaw = true) :
    Says levels front error
      ("pyrsc.lexer.scanner: " ++ error.debug ++ " at " ++ toString error.span.start ++ ".." ++
        toString error.span.stop ++ "\n")
  | inconsistentDedent {newline : Token} (kind : error.kind = .inconsistentDedent)
      (behind : Layout.Behind newline front (.error error)) :
    Says levels front error
      ("pyrsc.lexer.indentation: inconsistent dedent to width " ++
        toString (Layout.lineWidth newline.value) ++ " at " ++ toString error.span.start ++ ".." ++
        toString error.span.stop ++ ", open levels [" ++
        ", ".intercalate (levels.map toString) ++ "]\n")

/-- The line of a note is the message on the error that the note tells of. -/
theorem says_noteLine {lexer : Lexer} {front : List Entry} {error : LexError} {note : Note}
    (h : note.Tells lexer front error) :
    Says lexer.widths.levels front error (Journal.noteLine note) := by
  cases h with
  | raw isRaw =>
    convert Says.raw isRaw using 1
    have hchannel : Journal.channel "pyrsc.lexer.scanner" = "pyrsc.lexer.scanner" := by decide
    have hfront : "pyrsc.lexer.scanner: " = "pyrsc.lexer.scanner" ++ ": " := by decide
    simp only [Journal.noteLine, Journal.line, Span.render, hchannel, hfront, String.append_assoc]
  | inconsistentDedent kind behind =>
    convert Says.inconsistentDedent kind behind using 1
    have hchannel : Journal.channel "pyrsc.lexer.indentation" = "pyrsc.lexer.indentation" := by
      decide
    have hfront : "pyrsc.lexer.indentation: inconsistent dedent to width " =
        "pyrsc.lexer.indentation" ++ (": " ++ "inconsistent dedent to width ") := by decide
    have hlevels : ", open levels [" = ", open levels " ++ "[" := by decide
    have hend : "]\n" = "]" ++ "\n" := by decide
    simp only [Journal.noteLine, Journal.line, Journal.levelList, Span.render, hchannel, hfront,
      hlevels, hend, String.append_assoc]

theorem readLine_eq (channel source path : String) :
    readLine channel source path =
      Journal.channel channel ++ ": read " ++ toString source.length ++ " characters from " ++
        path ++ "\n" := by
  have hread : ": read " = ": " ++ "read " := by decide
  simp only [readLine, Journal.line, hread, String.append_assoc]

theorem lexedLine_eq (channel : String) (entries : List Entry) :
    lexedLine channel entries =
      Journal.channel channel ++ ": lexed " ++ toString entries.length ++ " entries, " ++
        toString (errorsIn entries).length ++ " errors\n" := by
  have hlexed : ": lexed " = ": " ++ "lexed " := by decide
  have hend : " errors\n" = " errors" ++ "\n" := by decide
  simp only [lexedLine, Journal.line, hlexed, hend, String.append_assoc]

/-- **Verbose runs.** Asking for messages changes neither the status of a run nor what it prints,
and what it writes on the error output stands there between messages. In front are the message that
the file was read and those from lexing, which tell of the errors of the permissive stream, one of
each, in their order; those of a strict run tell of the first one alone. Behind is a message on the
stream, if there is one. -/
theorem verbose_runs (channel : String) {path source : String} {host : Host}
    {arguments : List String} {options : Options} {bytes : List UInt8}
    (hnames : Names host arguments options path bytes source) (hquiet : options.verbose = false)
    (hreturns : ∀ fault, lex options.settings source (some path) ≠ .error (.tooManyDigits fault)) :
    let report := run channel host arguments
    let stream := (lexRun {} source).entries
    let errors := if options.strict then (errorsIn stream).take 1 else errorsIn stream
    let pulled (n : Nat) := Sharing.after { lexer := Lexer.ofSettings {} source }
      (.tokens :: List.replicate n (.pull 0))
    Options.ofArguments host.edition ("--verbose" :: arguments) =
        .ok { options with verbose := true } ∧
      ∃ messages : List String,
        (messages.length = errors.length ∧
          ∀ front error back, stream = front ++ .error error :: back →
            ∀ message, messages[(errorsIn front).length]? = some message →
              Says (pulled (front.length + 1)).lexer.widths.levels front error message) ∧
        ∀ others, Options.ofArguments host.edition others =
            .ok { options with verbose := true } →
          let verbose := run channel host others
          let opening := Journal.channel channel ++ ": read " ++ toString source.length ++
            " characters from " ++ path ++ "\n" ++ String.join messages ++ report.stderr
          verbose.status = report.status ∧ verbose.stdout = report.stdout ∧
            (∀ entries, lex options.settings source (some path) = .ok entries →
              verbose.stderr = opening ++ Journal.channel channel ++ ": lexed " ++
                toString entries.length ++ " entries, " ++
                toString (errorsIn entries).length ++ " errors\n") ∧
            ∀ failure, lex options.settings source (some path) = .error (.failure failure) →
              verbose.stderr = opening := by
  intro report stream errors pulled
  have hstrict : options.settings.isStrict = options.strict := by
    rw [Options.settings]
    rfl
  obtain ⟨hlength, htells⟩ :=
    notes_lexRun isStrict_default (distinguishes_settings options) source
  rw [hstrict] at hlength
  refine ⟨Options.ofArguments_verbose hnames.ofArguments_eq,
    (lexRun options.settings source).notes.map Journal.noteLine, ⟨?_, ?_⟩, fun others hothers => ?_⟩
  · rw [List.length_map]
    exact hlength
  · intro front error back hsplit message hmessage
    rw [List.getElem?_map, Option.map_eq_some_iff] at hmessage
    obtain ⟨note, hnote, rfl⟩ := hmessage
    exact says_noteLine (htells front error back hsplit note hnote)
  · intro verbose opening
    have hloud : Names host others options.loud path bytes source :=
      ⟨hothers, hnames.input_eq, hnames.read_eq, hnames.decode_eq⟩
    have hreport : report = reportSource channel options path source := hnames.run_eq
    have hverbose : verbose = reportSource channel options.loud path source := hloud.run_eq
    obtain ⟨hstatus, hstdout, hstderr⟩ := reportSource_loud hquiet hreturns
    rw [← hverbose, ← hreport] at hstatus hstdout hstderr
    rw [readLine_eq] at hstderr
    refine ⟨hstatus, hstdout, fun entries hlex => ?_, fun failure hlex => ?_⟩
    · rw [hstderr, hlex, closingText, lexedLine_eq]
      simp only [opening, String.append_assoc]
    · rw [hstderr, hlex, closingText, String.append_empty]

/-- Three blocks are open, and one of them is closed for a line whose width fits none of the others.
On that line stands a mark that is no token. -/
theorem verbose_runs_dedent :
    let source := "a\n b\n    c\n  #"
    let bytes := Utf8.encode source.toList
    let host : Host := { edition := .late, files := fun _ => .ok bytes }
    let options : Options := { json := true, input := some "/f" }
    let report := run channel host ["--json", "/f"]
    let verbose := run channel host ["--verbose", "--json", "/f"]
    Names host ["--json", "/f"] options "/f" bytes source ∧ options.verbose = false ∧
      (∀ fault, lex options.settings source (some "/f") ≠ .error (.tooManyDigits fault)) ∧
      errorsIn (lexRun {} source).entries =
        [⟨.inconsistentDedent, ⟨13, 13⟩, ""⟩, ⟨.unrecognizedToken, ⟨13, 14⟩, "#"⟩] ∧
      verbose.status = report.status ∧ verbose.stdout = report.stdout ∧
      report.stderr =
        "/f:4:3: unindent does not match any outer indentation level\n" ++
          "/f:4:3: unrecognized input '#'\n" ∧
      verbose.stderr =
        "pyrsc.cli: read 14 characters from /f\n" ++
          "pyrsc.lexer.indentation: inconsistent dedent to width 2 at 13..13, " ++
          "open levels [0, 1]\n" ++
          "pyrsc.lexer.scanner: LexError(UNRECOGNIZED_TOKEN, '#') at 13..14\n" ++
          report.stderr ++ "pyrsc.cli: lexed 12 entries, 2 errors\n" := by
  intro source bytes host options report verbose
  have hnames : Names host ["--json", "/f"] options "/f" bytes source :=
    ⟨by cbv, rfl, by cbv, Utf8.decode_encode _⟩
  have hloud : Names host ["--verbose", "--json", "/f"] options.loud "/f" bytes source :=
    ⟨by cbv, rfl, by cbv, Utf8.decode_encode _⟩
  obtain ⟨entries, hlex, hlength, herrors⟩ :
      ∃ entries, lex {} source (some "/f") = .ok entries ∧ entries.length = 12 ∧
        errorsIn entries =
          [⟨.inconsistentDedent, ⟨13, 13⟩, ""⟩, ⟨.unrecognizedToken, ⟨13, 14⟩, "#"⟩] :=
    ⟨_, by cbv, by cbv, by cbv⟩
  have hnotes : (lexRun {} source).notes =
      [.inconsistentDedent 2 ⟨13, 13⟩ [0, 1],
        .rawError ⟨.unrecognizedToken, ⟨13, 14⟩, "#"⟩] := by cbv
  have hdiagnostics : String.join ((errorsIn entries).map (diagnosticLine source "/f")) =
      "/f:4:3: unindent does not match any outer indentation level\n" ++
        "/f:4:3: unrecognized input '#'\n" := by
    rw [herrors]
    decide +kernel
  have hreport :
      report.stderr = String.join ((errorsIn entries).map (diagnosticLine source "/f")) := by
    change (run channel host ["--json", "/f"]).stderr = _
    rw [hnames.run_eq, reportSource_of_goes rfl hlex (.inl rfl)]
  have hreturns :
      ∀ fault, lex options.settings source (some "/f") ≠ .error (.tooManyDigits fault) := by
    intro fault hfault
    cases hlex.symm.trans hfault
  have hverbose : verbose.stderr =
      readLine channel source "/f" ++ String.join ((lexRun {} source).notes.map Journal.noteLine) ++
        report.stderr ++ closingText channel (lex {} source (some "/f")) := by
    obtain ⟨-, -, hstderr⟩ := reportSource_loud rfl hreturns
    rwa [← hloud.run_eq, ← hnames.run_eq] at hstderr
  have hmessages : readLine channel source "/f" ++
      String.join ((lexRun {} source).notes.map Journal.noteLine) =
        "pyrsc.cli: read 14 characters from /f\n" ++
          "pyrsc.lexer.indentation: inconsistent dedent to width 2 at 13..13, " ++
          "open levels [0, 1]\n" ++
          "pyrsc.lexer.scanner: LexError(UNRECOGNIZED_TOKEN, '#') at 13..14\n" := by
    rw [hnotes]
    decide +kernel
  have hclosing : lexedLine channel entries = "pyrsc.cli: lexed 12 entries, 2 errors\n" := by
    rw [lexedLine, hlength, herrors]
    decide +kernel
  obtain ⟨hoptions, messages, -, hruns⟩ := verbose_runs channel hnames rfl hreturns
  obtain ⟨hstatus, hstdout, -, -⟩ := hruns ["--verbose", "--json", "/f"] hoptions
  refine ⟨hnames, rfl, hreturns, ?_, hstatus, hstdout, hreport.trans hdiagnostics, ?_⟩
  · rw [← herrors, ← Run.entries_of_result hlex]
  · rw [hverbose, hmessages, hlex, closingText, hclosing]

end Offside.CommandLine
