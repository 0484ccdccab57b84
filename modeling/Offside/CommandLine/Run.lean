import Offside.CommandLine.Host
import Offside.Journal
import Offside.Lexing
import Offside.Record

/-!
# The command

One source file is lexed and its stream printed. The report of a run holds what goes to the two
output streams, and the exit status or the reason why there is none.
-/

namespace Offside.CommandLine

def usageLine : String :=
  "usage: pyrsc [-h] [--strict] [--json] [-v] [input]\n"

def helpText : String :=
  usageLine ++
    "\nPrint the token stream of a source file\n" ++
    "\npositional arguments:\n" ++
    "  input          Source file to lex\n" ++
    "\noptions:\n" ++
    "  -h, --help     show this help message and exit\n" ++
    "  --strict       Stop at the first error entry\n" ++
    "  --json         Print the stream as JSON\n" ++
    "  -v, --verbose  Enable debug logging\n"

/-- Why a run is broken off. -/
inductive Fault where
  | unreadable (path : String) (fault : ReadFault)
  | undecodable (flaw : Utf8.Flaw)
  | tooManyDigits (fault : Text.TooManyDigits)
  deriving DecidableEq, Repr

def Fault.message : Fault → String
  | unreadable path fault => fault.message path
  | undecodable flaw => flaw.message
  | tooManyDigits fault => fault.message

structure Report where
  status : Except Fault Nat
  stdout : String := ""
  stderr : String := ""

/-- The channel of the command's own messages. -/
def channel : String := "pyrsc.cli"

/-- What arguments ask for: a report that needs no file, or the lexing of a file. -/
inductive Plan where
  | report (report : Report)
  | lex (options : Options) (path : String)

def Plan.ofArguments (edition : Edition) (arguments : List String) : Plan :=
  match Options.ofArguments edition arguments with
  | .error .help => .report { status := .ok 0, stdout := helpText }
  | .error (.usage error) =>
    .report { status := .ok 2, stderr := usageLine ++ "pyrsc: error: " ++ error.message ++ "\n" }
  | .ok options =>
    match options.input with
    | none => .report { status := .ok 0, stderr := "Invalid usage\n" ++ usageLine }
    | some path => .lex options path

def entryLine (entry : Entry) : String :=
  entry.debug ++ ": " ++ entry.span.render ++ "\n"

def streamText (json : Bool) (entries : List Entry) : String :=
  if json then printEntries none entries ++ "\n" else String.join (entries.map entryLine)

def diagnosticLine (source path : String) (error : LexError) : String :=
  (Location.ofSpan source error.span (some path)).render ++ ": " ++ error.message ++ "\n"

def verboseText (options : Options) (lines : List String) : String :=
  if options.verbose then String.join lines else ""

def readLine (channel source path : String) : String :=
  Journal.line channel ("read " ++ toString source.length ++ " characters from " ++ path)

def lexedLine (channel : String) (entries : List Entry) : String :=
  Journal.line channel
    ("lexed " ++ toString entries.length ++ " entries, " ++
      toString (errorsIn entries).length ++ " errors")

def Options.settings (options : Options) : Settings :=
  { strict := .bool options.strict }

def reportSource (channel : String) (options : Options) (path source : String) : Report :=
  let run := lexRun options.settings source
  let progress :=
    verboseText options (readLine channel source path :: run.notes.map Journal.noteLine)
  match run.result source (some path) with
  | .error (.failure failure) =>
    { status := .ok 1, stderr := progress ++ "error: " ++ failure.message ++ "\n" }
  | .error (.tooManyDigits fault) => { status := .error (.tooManyDigits fault), stderr := progress }
  | .ok entries =>
    let errors := errorsIn entries
    { status := .ok (if errors.isEmpty then 0 else 1)
      stdout := streamText options.json entries
      stderr := progress ++ String.join (errors.map (diagnosticLine source path)) ++
        verboseText options [lexedLine channel entries] }

def reportContents (channel : String) (options : Options) (path : String) :
    Except ReadFault (List UInt8) → Report
  | .error fault => { status := .error (.unreadable path fault) }
  | .ok bytes =>
    match Utf8.decode bytes with
    | .error flaw => { status := .error (.undecodable flaw) }
    | .ok text => reportSource channel options path (String.ofList text)

/-- Runs the command on a host. The run is the first one of its process: messages are shown if this
run asks for them, and not because an earlier one did. -/
def run (channel : String) (host : Host) (arguments : List String) : Report :=
  match Plan.ofArguments host.edition arguments with
  | .report report => report
  | .lex options path => reportContents channel options path (host.read path)

end Offside.CommandLine
