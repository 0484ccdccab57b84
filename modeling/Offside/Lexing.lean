import Offside.Failure
import Offside.Lexer
import Offside.Settings

/-!
# Lexing a source

The whole stream of a source under given settings. Bad input is part of the stream, unless the
settings are strict: then the first error entry is a failure.
-/

namespace Offside

inductive LexFault where
  | failure (f : Failure)
  | tooManyDigits (f : Text.TooManyDigits)
  deriving Repr

def LexFault.message : LexFault → String
  | .failure f => f.message
  | .tooManyDigits f => f.message

def Lexer.ofSettings (settings : Settings) (source : String) (file : Option String := none) :
    Lexer :=
  { source := source, file := file, distinguish := settings.distinguishes }

def lexRun (settings : Settings) (source : String) : Run :=
  (Lexer.ofSettings settings source).run settings.isStrict .tokens

/-- The outcome of a run over a source. -/
def Run.result (source : String) (file : Option String) (run : Run) :
    Except LexFault (List Entry) :=
  match run.ending with
  | .finished => .ok run.entries
  | .halted error => .error (.failure (.ofError source error file))
  | .failed fault => .error (.tooManyDigits fault)

def lex (settings : Settings) (source : String) (file : Option String := none) :
    Except LexFault (List Entry) :=
  (lexRun settings source).result source file

def scan (settings : Settings) (source : String) : Except LexFault (List Entry) :=
  ((Lexer.ofSettings settings source).run false .raw).result source none

end Offside
