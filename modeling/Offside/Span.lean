import Offside.Utf8
import Offside.Window

/-!
# Spans

A half-open range of byte offsets into a source. Spans of a lexed source lie within it; a span read
from elsewhere may have any integers as its bounds.
-/

namespace Offside

structure Span where
  start : Int
  stop : Int
  deriving DecidableEq, Repr

namespace Span

def point (offset : Int) : Span :=
  ⟨offset, offset⟩

def isEmpty (span : Span) : Bool :=
  span.start == span.stop

def render (span : Span) : String :=
  toString span.start ++ ".." ++ toString span.stop

/-- Why a span has no length: it ends before it starts, or the length does not fit a signed machine
word. -/
inductive LengthFault where
  | negative
  | tooLarge
  deriving DecidableEq, Repr

def LengthFault.message : LengthFault → String
  | negative => "__len__() should return >= 0"
  | tooLarge => "cannot fit 'int' into an index-sized integer"

def maxLength : Int := 0x7FFFFFFFFFFFFFFF

def length (span : Span) : Except LengthFault Int :=
  if span.stop < span.start then .error .negative
  else if maxLength < span.stop - span.start then .error .tooLarge
  else .ok (span.stop - span.start)

/-- The text whose encoding stands at a span of the encoded source. -/
def slice (source : String) (span : Span) : Except Utf8.Flaw String :=
  (Utf8.decode (window span.start span.stop (Utf8.encode source.toList))).map String.ofList

/-- The text at a span where bytes and characters are counted alike. -/
def sliceAscii (source : String) (span : Span) : String :=
  String.ofList (window span.start span.stop source.toList)

/-- The text at a span, found without encoding the source if that is all ASCII. -/
def quickSlice (source : String) (span : Span) : Except Utf8.Flaw String :=
  if Utf8.IsAscii source.toList then .ok (span.sliceAscii source) else span.slice source

end Span

/-- The places of the characters of a source in its bytes. For one of ASCII alone no offsets are
kept, as bytes and characters are counted alike there. -/
structure OffsetTable where
  offsets : Option (List Nat)
  stop : Nat
  deriving DecidableEq, Repr

namespace OffsetTable

def ofSource (source : String) : OffsetTable :=
  if Utf8.IsAscii source.toList then { offsets := none, stop := source.length }
  else
    let offsets := Utf8.offsets 0 source.toList
    { offsets := some offsets, stop := offsets.getLastD 0 }

/-- The span between two places that are counted in characters. -/
def span? (table : OffsetTable) (start stop : Nat) : Option Span :=
  match table.offsets with
  | none => some ⟨start, stop⟩
  | some offsets => do return ⟨← offsets[start]?, ← offsets[stop]?⟩

end OffsetTable

end Offside
