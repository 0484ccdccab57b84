import Offside.Line
import Offside.Text.Decimal

/-!
# Complaints about JSON

What can be wrong with a text that is read as JSON, and where. While the text is read, a place is
the number of characters that are left there; a fault names the line and the column.
-/

namespace Offside.Json

inductive Complaint where
  | byteOrderMark
  | noValue
  | noName
  | noColon
  | noComma
  | extraData
  | openString
  | controlCharacter
  | badEscape
  | badCodeUnit
  deriving DecidableEq, Repr

def Complaint.message : Complaint → String
  | byteOrderMark => "Unexpected UTF-8 BOM (decode using utf-8-sig)"
  | noValue => "Expecting value"
  | noName => "Expecting property name enclosed in double quotes"
  | noColon => "Expecting ':' delimiter"
  | noComma => "Expecting ',' delimiter"
  | extraData => "Extra data"
  | openString => "Unterminated string starting at"
  | controlCharacter => "Invalid control character at"
  | badEscape => "Invalid \\escape"
  | badCodeUnit => "Invalid \\uXXXX escape"

/-- What values nest in. -/
inductive Container where
  | list
  | object
  deriving DecidableEq, Repr

def Container.message : Container → String
  | list => "array"
  | object => "object"

/-- Lists and objects may stand in one another so many deep. -/
def nestingLimit : Nat := 990

/-- Why reading stopped: a complaint with so many characters left, an integer over the limit, or a
list or an object that stands too deep. -/
inductive Stop where
  | complaint (complaint : Complaint) (left : Nat)
  | tooManyDigits (fault : Text.TooManyDigits)
  | tooDeep (container : Container)
  deriving DecidableEq, Repr

inductive ReadFault where
  | complaint (complaint : Complaint) (line column position : Nat)
  | tooManyDigits (fault : Text.TooManyDigits)
  | tooDeep (container : Container)
  deriving DecidableEq, Repr

def ReadFault.message : ReadFault → String
  | complaint what line column position =>
    what.message ++ ": line " ++ toString line ++ " column " ++ toString column ++ " (char " ++
      toString position ++ ")"
  | tooManyDigits fault => fault.message
  | tooDeep container =>
    "maximum recursion depth exceeded while decoding a JSON " ++ container.message ++
      " from a unicode string"

/-- Places what stopped the reading of a document. -/
def Stop.locate (document : List Char) : Stop → ReadFault
  | complaint what left =>
    let before := document.take (document.length - left)
    .complaint what (lineNumber '\n' before) ((lastLine '\n' before).length + 1) before.length
  | tooManyDigits fault => .tooManyDigits fault
  | tooDeep container => .tooDeep container

end Offside.Json
