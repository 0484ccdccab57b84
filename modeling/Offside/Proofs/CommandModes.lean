import Offside.CommandLine.Run
import Offside.Proofs.StrictLexing
import Offside.Proofs.Utf8RoundTrip

/-!
# The modes of the command

A run of the command over a file reports its stream in one of several modes. The report is told by
the outcome of lexing: `reportSource_of_ok` and `reportSource_of_failure`. `modes_agree` says that
the modes do not contradict each other: they agree on the status, and a strict run reports the first
diagnostic of the permissive one.
-/

namespace Offside

theorem any_isError (entries : List Entry) :
    entries.any Entry.isError = !(errorsIn entries).isEmpty := by
  induction entries with
  | nil => rfl
  | cons entry entries ih =>
    cases entry with
    | token token => exact ih
    | error error => rfl

namespace CommandLine

/-! ### Arguments -/

def Options.spelled (options : Options) : List String :=
  (if options.strict then [Flag.strict.long] else []) ++
    (if options.json then [Flag.json.long] else []) ++
    (if options.verbose then [Flag.verbose.long] else []) ++
    match options.input with
    | none => []
    | some path => ["--", path]

theorem Options.ofArguments_spelled (edition : Edition) (options : Options) :
    Options.ofArguments edition options.spelled = .ok options := by
  obtain ⟨strict, json, verbose, input⟩ := options
  cases edition <;> cases strict <;> cases json <;> cases verbose <;> cases input <;> rfl

/-- The arguments name a file that can be read, and its bytes encode a source. -/
structure Names (host : Host) (arguments : List String) (options : Options) (path : String)
    (bytes : List UInt8) (source : String) : Prop where
  ofArguments_eq : Options.ofArguments host.edition arguments = .ok options
  input_eq : options.input = some path
  read_eq : host.read path = .ok bytes
  decode_eq : Utf8.decode bytes = .ok source.toList

section Report

variable {channel path source : String} {host : Host} {arguments : List String}
  {options : Options} {bytes : List UInt8} {entries : List Entry} {failure : Failure}

theorem Names.run_eq (h : Names host arguments options path bytes source) :
    run channel host arguments = reportSource channel options path source := by
  obtain ⟨hoptions, hinput, hread, hdecode⟩ := h
  have hplan : Plan.ofArguments host.edition arguments = .lex options path := by
    rw [Plan.ofArguments, hoptions]
    dsimp only
    rw [hinput]
  rw [run, hplan]
  dsimp only
  rw [hread, reportContents, hdecode]
  dsimp only
  rw [String.ofList_toList]

/-! ### Reports -/

def progressText (channel : String) (options : Options) (path source : String) : String :=
  verboseText options
    (readLine channel source path :: (lexRun options.settings source).notes.map Journal.noteLine)

theorem verboseText_of_quiet (hquiet : options.verbose = false) (lines : List String) :
    verboseText options lines = "" := by
  rw [verboseText, hquiet]
  rfl

theorem reportSource_of_ok (h : lex options.settings source (some path) = .ok entries) :
    reportSource channel options path source =
      { status := .ok (if (errorsIn entries).isEmpty then 0 else 1)
        stdout := streamText options.json entries
        stderr := progressText channel options path source ++
          String.join ((errorsIn entries).map (diagnosticLine source path)) ++
          verboseText options [lexedLine channel entries] } := by
  rw [lex] at h
  rw [reportSource]
  dsimp only
  rw [h]
  rfl

theorem reportSource_of_failure
    (h : lex options.settings source (some path) = .error (.failure failure)) :
    reportSource channel options path source =
      { status := .ok 1
        stderr := progressText channel options path source ++ "error: " ++ failure.message ++
          "\n" } := by
  rw [lex] at h
  rw [reportSource]
  dsimp only
  rw [h]
  rfl

/-! ### Strict runs -/

theorem settings_of_permissive (h : options.strict = false) : options.settings = {} := by
  rw [Options.settings, h]

theorem isStrict_default : Settings.isStrict {} = false := rfl

theorem distinguishes_settings (options : Options) :
    options.settings.distinguishes = Settings.distinguishes {} := rfl

theorem isStrict_settings (h : options.strict = true) : options.settings.isStrict = true := by
  rw [Options.settings, h]
  rfl

theorem lex_settings_of_goes (hlex : lex {} source (some path) = .ok entries)
    (hgoes : options.strict = false ∨ errorsIn entries = []) :
    lex options.settings source (some path) = .ok entries := by
  cases hstrict : options.strict with
  | false => rwa [settings_of_permissive hstrict]
  | true =>
    have hclean : errorsIn entries = [] := hgoes.resolve_left (by simp [hstrict])
    rw [← hlex]
    apply lex_of_errorsIn_eq_nil (isStrict_settings hstrict) isStrict_default
      (distinguishes_settings options)
    rw [Run.entries_of_result hlex, hclean]

theorem lex_settings_of_error (hstrict : options.strict = true)
    (hlex : lex {} source (some path) = .ok entries) {error : LexError}
    (hfirst : (errorsIn entries).head? = some error) :
    lex options.settings source (some path) =
      .error (.failure (.ofError source error (some path))) := by
  apply lex_of_head?_errorsIn (isStrict_settings hstrict) isStrict_default
    (distinguishes_settings options)
  rw [Run.entries_of_result hlex, hfirst]

/-! ### Quiet runs -/

theorem reportSource_of_goes (hquiet : options.verbose = false)
    (hlex : lex {} source (some path) = .ok entries)
    (hgoes : options.strict = false ∨ errorsIn entries = []) :
    reportSource channel options path source =
      { status := .ok (if (errorsIn entries).isEmpty then 0 else 1)
        stdout := streamText options.json entries
        stderr := String.join ((errorsIn entries).map (diagnosticLine source path)) } := by
  rw [reportSource_of_ok (lex_settings_of_goes hlex hgoes), progressText,
    verboseText_of_quiet hquiet, verboseText_of_quiet hquiet, String.empty_append,
    String.append_empty]

theorem reportSource_of_error (hquiet : options.verbose = false) (hstrict : options.strict = true)
    (hlex : lex {} source (some path) = .ok entries) {error : LexError}
    (hfirst : (errorsIn entries).head? = some error) :
    reportSource channel options path source =
      { status := .ok 1
        stderr := "error: " ++ (Location.ofSpan source error.span (some path)).render ++ " " ++
          error.message ++ "\n" } := by
  rw [reportSource_of_failure (lex_settings_of_error hstrict hlex hfirst), progressText,
    verboseText_of_quiet hquiet, String.empty_append, Failure.message_ofError,
    ← String.append_assoc, ← String.append_assoc]

end Report

/-- **The modes agree.** Let the permissive stream of a file be given. The status of a run over it
tells whether it has an error, in each mode. A permissive run writes a line for each error on the
error output, with its place and its message. A strict run does as a permissive one does when there
is no error, and otherwise prints nothing but the place and the message of the first one. -/
theorem modes_agree (channel : String) {path source : String} {host : Host}
    {arguments : List String} {options : Options} {bytes : List UInt8} {entries : List Entry}
    (hnames : Names host arguments options path bytes source) (hquiet : options.verbose = false)
    (hlex : lex {} source (some path) = .ok entries) :
    let report := run channel host arguments
    let errors := errorsIn entries
    let place (error : LexError) := (Location.ofSpan source error.span (some path)).render
    report.status = .ok (if entries.any Entry.isError then 1 else 0) ∧
      (options.strict = false →
        report.stderr =
          String.join (errors.map fun error => place error ++ ": " ++ error.message ++ "\n")) ∧
      (options.strict = true → errors = [] →
        (∃ others, Options.ofArguments host.edition others =
            .ok { options with strict := false }) ∧
          ∀ others, Options.ofArguments host.edition others =
              .ok { options with strict := false } →
            run channel host others = report) ∧
      (options.strict = true → ∀ error, errors.head? = some error →
        report.stdout = "" ∧
          report.stderr = "error: " ++ place error ++ " " ++ error.message ++ "\n") := by
  intro report errors place
  have hreport : report = reportSource channel options path source := hnames.run_eq
  have hgoes (h : options.strict = false ∨ errors = []) :=
    hreport.trans (reportSource_of_goes hquiet hlex h)
  have herror (hstrict : options.strict = true) {error : LexError}
      (hfirst : errors.head? = some error) :=
    hreport.trans (reportSource_of_error hquiet hstrict hlex hfirst)
  refine ⟨?_, fun hstrict => ?_, fun _ hclean => ⟨?_, fun others hothers => ?_⟩,
    fun hstrict error hfirst => ?_⟩
  · rw [any_isError]
    by_cases h : options.strict = false ∨ errors = []
    · rw [hgoes h]
      cases (errorsIn entries).isEmpty <;> rfl
    · obtain ⟨hstrict, hsome⟩ := not_or.1 h
      rw [herror (Bool.eq_true_of_not_eq_false hstrict) (List.head?_eq_some_head hsome),
        List.isEmpty_eq_false_iff.2 hsome]
      rfl
  · rw [hgoes (.inl hstrict)]
    rfl
  · exact ⟨_, Options.ofArguments_spelled _ _⟩
  · have hnames' : Names host others { options with strict := false } path bytes source :=
      ⟨hothers, hnames.input_eq, hnames.read_eq, hnames.decode_eq⟩
    rw [hnames'.run_eq, hgoes (.inr hclean)]
    exact reportSource_of_goes hquiet hlex (.inl rfl)
  · rw [herror hstrict hfirst]
    exact ⟨rfl, rfl⟩

/-- The path of the file is absolute and not in its normal form, and the name of the file has a
colon. The column counts characters. -/
theorem modes_agree_colon :
    let source := "x\n\té #"
    let bytes := Utf8.encode source.toList
    let host : Host :=
      { edition := .late
        files := fun path =>
          if path = "/srv/a:b" then .ok bytes else .error ⟨13, "Permission denied"⟩ }
    let options : Options := { strict := true, input := some "/srv/./a:b" }
    let entries : List Entry :=
      [.token ⟨.identifier, ⟨0, 1⟩, .text "x"⟩, .token ⟨.newline, ⟨1, 3⟩, .text "\n\t"⟩,
        Layout.indentation 3, .error ⟨.unrecognizedToken, ⟨3, 5⟩, "é"⟩,
        .error ⟨.unrecognizedToken, ⟨6, 7⟩, "#"⟩, Layout.deindentation 7]
    let report := run channel host ["--str", "/srv/./a:b"]
    Names host ["--str", "/srv/./a:b"] options "/srv/./a:b" bytes source ∧
      options.verbose = false ∧ lex {} source (some "/srv/./a:b") = .ok entries ∧
      report.status = .ok 1 ∧ report.stdout = "" ∧
      report.stderr = "error: /srv/./a:b:2:2 unrecognized input 'é'\n" := by
  intro source bytes host options entries report
  have hnames : Names host ["--str", "/srv/./a:b"] options "/srv/./a:b" bytes source :=
    ⟨by cbv, rfl, by cbv, Utf8.decode_encode _⟩
  have hlex : lex {} source (some "/srv/./a:b") = .ok entries := by cbv
  have hplace : (Location.ofSpan source ⟨3, 5⟩ (some "/srv/./a:b")).render = "/srv/./a:b:2:2" := by
    cbv
  have hmessage :
      LexError.message ⟨.unrecognizedToken, ⟨3, 5⟩, "é"⟩ = "unrecognized input 'é'" := by
    decide +kernel
  obtain ⟨hstatus, -, -, herror⟩ := modes_agree channel hnames rfl hlex
  obtain ⟨hstdout, hstderr⟩ := herror rfl ⟨.unrecognizedToken, ⟨3, 5⟩, "é"⟩ rfl
  refine ⟨hnames, rfl, hlex, hstatus, hstdout, hstderr.trans ?_⟩
  dsimp only
  rw [hplace, hmessage]
  rfl

end CommandLine

end Offside
