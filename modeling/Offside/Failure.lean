import Offside.Entry
import Offside.Location
import Offside.Text.Decimal

/-!
# Failures

An error of the stream that a caller takes as fatal, with as much of its location as is known.
-/

namespace Offside

structure Failure where
  error : LexError
  line : Option Int := none
  column : Option Int := none
  file : Option String := none
  deriving DecidableEq, Repr

namespace Failure

def ofError (source : String) (error : LexError) (file : Option String := none) : Failure :=
  let location := Location.ofSpan source error.span file
  { error := error
    line := some location.line
    column := some location.column
    file := file }

/-- The numbers that are known of the location. A column counts only within a line. -/
def numbers (failure : Failure) : List Int :=
  match failure.line with
  | none => []
  | some line => line :: failure.column.toList

/-- The failure with so much of its location, unless a number of it is too long for a text. -/
def make (error : LexError) (line column : Option Int := none) (file : Option String := none) :
    Except Text.Unwritable Failure :=
  let failure : Failure := { error := error, line := line, column := column, file := file }
  if failure.numbers.all Text.isWritable then .ok failure else .error .tooManyDigits

/-- The known parts of the location, a colon after each. A column counts only within a line. -/
def place (failure : Failure) : String :=
  let file := match failure.file with
    | none => ""
    | some file => if file.isEmpty then "" else file ++ ":"
  match failure.line, failure.column with
  | none, _ => file
  | some line, none => file ++ toString line ++ ":"
  | some line, some column => file ++ toString line ++ ":" ++ toString column ++ ":"

/-- Takes away the colons that a text ends in. -/
def dropColons (text : String) : String :=
  String.ofList (text.toList.reverse.dropWhile (· == ':')).reverse

def message (failure : Failure) : String :=
  if failure.place.isEmpty then failure.error.message
  else dropColons failure.place ++ " " ++ failure.error.message

end Failure

end Offside
