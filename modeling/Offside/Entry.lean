import Offside.Span
import Offside.Text.Decimal
import Offside.Text.Quoted

/-!
# Entries

A lexed source is a stream of entries. An entry is a token or an error that stands in place of one.
-/

namespace Offside

inductive TokenKind where
  | defKeyword
  | returnKeyword
  | identifier
  | integer
  | leftParen
  | rightParen
  | arrow
  | colon
  | newline
  | indentation
  | deindentation
  deriving DecidableEq, Repr

namespace TokenKind

def all : List TokenKind :=
  [defKeyword, returnKeyword, identifier, integer, leftParen, rightParen, arrow, colon, newline,
    indentation, deindentation]

def name : TokenKind → String
  | defKeyword => "DEFINITION"
  | returnKeyword => "RETURN"
  | identifier => "IDENTIFIER"
  | integer => "INTEGER"
  | leftParen => "LEFT_PAREN"
  | rightParen => "RIGHT_PAREN"
  | arrow => "ARROW"
  | colon => "COLON"
  | newline => "NEWLINE"
  | indentation => "INDENTATION"
  | deindentation => "DEINDENTATION"

def ofName? (name : String) : Option TokenKind :=
  all.find? fun kind => kind.name == name

theorem mem_all (kind : TokenKind) : kind ∈ all := by
  cases kind <;> simp [all]

@[simp]
theorem ofName?_name (kind : TokenKind) : ofName? kind.name = some kind := by
  cases kind <;> decide

/-- The kinds whose payload is shown with the token. -/
def showsValue (kind : TokenKind) : Bool :=
  kind == identifier || kind == integer

/-- The kinds of the tokens that layout puts in. -/
def isSynthetic (kind : TokenKind) : Bool :=
  kind == indentation || kind == deindentation

end TokenKind

inductive ErrorKind where
  | unrecognizedToken
  | integerOverflow
  | inconsistentDedent
  deriving DecidableEq, Repr

namespace ErrorKind

def all : List ErrorKind :=
  [unrecognizedToken, integerOverflow, inconsistentDedent]

def name : ErrorKind → String
  | unrecognizedToken => "UNRECOGNIZED_TOKEN"
  | integerOverflow => "INTEGER_OVERFLOW"
  | inconsistentDedent => "INCONSISTENT_DEDENT"

def ofName? (name : String) : Option ErrorKind :=
  all.find? fun kind => kind.name == name

theorem mem_all (kind : ErrorKind) : kind ∈ all := by
  cases kind <;> simp [all]

@[simp]
theorem ofName?_name (kind : ErrorKind) : ofName? kind.name = some kind := by
  cases kind <;> decide

end ErrorKind

/-- What a token carries beside its kind. -/
inductive Payload where
  | nothing
  | text (s : String)
  | number (n : Int)
  deriving DecidableEq, Repr

namespace Payload

/-- A number with too many digits cannot be written out, neither in messages nor as plain text. -/
def isWritable : Payload → Bool
  | .number n => Text.isWritable n
  | _ => true

/-- How messages show a payload that can be written out. -/
def debug : Payload → String
  | .nothing => "None"
  | .text s => Text.quoted s
  | .number n => toString n

def plain : Payload → String
  | .text s => s
  | payload => payload.debug

/-- The payload as plain text, if it can be written out. -/
def render (payload : Payload) : Except Text.Unwritable String :=
  if payload.isWritable then .ok payload.plain else .error .tooManyDigits

end Payload

/-- Lexing gives an identifier its text, an integer its number, a newline its run of characters and
any other token nothing. -/
structure Token where
  kind : TokenKind
  span : Span
  value : Payload := .nothing
  deriving DecidableEq, Repr

def Token.debug (token : Token) : String :=
  if token.kind.showsValue then "Token(" ++ token.kind.name ++ ", " ++ token.value.debug ++ ")"
  else "Token(" ++ token.kind.name ++ ")"

/-- The text is the part of the source at fault, empty when there is none. -/
structure LexError where
  kind : ErrorKind
  span : Span
  text : String := ""
  deriving DecidableEq, Repr

namespace LexError

def debug (error : LexError) : String :=
  if error.text.isEmpty then "LexError(" ++ error.kind.name ++ ")"
  else "LexError(" ++ error.kind.name ++ ", " ++ Text.quoted error.text ++ ")"

def message (error : LexError) : String :=
  match error.kind with
  | .integerOverflow => "integer literal " ++ error.text ++ " does not fit in 64 bits"
  | .inconsistentDedent => "unindent does not match any outer indentation level"
  | .unrecognizedToken => "unrecognized input " ++ Text.quoted error.text

end LexError

inductive Entry where
  | token (t : Token)
  | error (e : LexError)
  deriving DecidableEq, Repr

namespace Entry

def span : Entry → Span
  | .token t => t.span
  | .error e => e.span

def debug : Entry → String
  | .token t => t.debug
  | .error e => e.debug

def isWritable : Entry → Bool
  | .token t => t.value.isWritable
  | .error _ => true

def number? : Entry → Option Int
  | .token ⟨_, _, .number n⟩ => some n
  | _ => none

/-- The bounds of the span and the number that an entry carries, if any. -/
def numbers (entry : Entry) : List Int :=
  [entry.span.start, entry.span.stop] ++ entry.number?.toList

def error? : Entry → Option LexError
  | .token _ => none
  | .error e => some e

def isError (entry : Entry) : Bool :=
  entry.error?.isSome

end Entry

def errorsIn (entries : List Entry) : List LexError :=
  entries.filterMap Entry.error?

end Offside
