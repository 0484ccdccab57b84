import Offside.Line
import Offside.Span

/-!
# Locations

A byte offset as a line and a column. Lines and columns count from one, and columns count
characters.
-/

namespace Offside

structure Location where
  line : Int
  column : Int
  offset : Int := 0
  stop : Int := 0
  file : Option String := none
  deriving DecidableEq, Repr

namespace Location

/-- The location of an offset into the encoded source. An offset inside a character stands behind
the part of it that it cuts off. -/
def ofOffset (source : String) (offset : Int) (file : Option String := none) : Location :=
  let bytes := Utf8.encode source.toList
  let before := bytes.take (bound bytes.length offset)
  let newline : UInt8 := 10
  { line := lineNumber newline before
    column := (Utf8.decodeLossy (lastLine newline before)).length + 1
    offset := offset
    stop := offset
    file := file }

def ofSpan (source : String) (span : Span) (file : Option String := none) : Location :=
  { ofOffset source span.start file with stop := span.stop }

def render (location : Location) : String :=
  let place := toString location.line ++ ":" ++ toString location.column
  match location.file with
  | none => place
  | some file => if file.isEmpty then place else file ++ ":" ++ place

end Location

end Offside
