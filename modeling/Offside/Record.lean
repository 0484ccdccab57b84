import Offside.Entry
import Offside.Json.Printer
import Offside.Json.Reader

/-!
# Records

An entry as a JSON object, and back. A record is an entry whose bounds and payload may be any JSON
value, since reading one checks the kind only.
-/

namespace Offside

inductive Record where
  | token (kind : TokenKind) (start stop value : Json)
  | error (kind : ErrorKind) (start stop text : Json)
  deriving Repr

inductive RecordFault where
  | noFields (value : Json)
  | noTag
  | unknownTag (tag : Json)
  | missingField (key : String)
  | notSubscriptable (value : Json)
  | indexedByName (value : Json)
  | unknownKind (kind : Json)
  | unhashable (value : Json)
  | notIterable (value : Json)
  deriving Repr

namespace RecordFault

/-- The sorts of faults that callers tell apart: a value that is not one of those allowed, a name
that is not there, a value of the wrong type, and a value without fields. -/
inductive Category where
  | value
  | key
  | type
  | attribute
  deriving DecidableEq, Repr

def category : RecordFault → Category
  | noFields _ => .attribute
  | noTag | unknownTag _ => .value
  | missingField _ | unknownKind _ => .key
  | notSubscriptable _ | indexedByName _ | unhashable _ | notIterable _ => .type

def message : RecordFault → String
  | noFields value => "'" ++ value.typeName ++ "' object has no attribute 'get'"
  | noTag => "Missing '_type' field in serialized entry"
  | unknownTag tag => "Unknown entry type: " ++ tag.debug
  | missingField key => Text.quoted key
  | notSubscriptable value => "'" ++ value.typeName ++ "' object is not subscriptable"
  | indexedByName (.string _) => "string indices must be integers, not 'str'"
  | indexedByName value => value.typeName ++ " indices must be integers or slices, not str"
  | unknownKind kind => kind.debug
  | unhashable value => "unhashable type: '" ++ value.typeName ++ "'"
  | notIterable value => "'" ++ value.typeName ++ "' object is not iterable"

end RecordFault

namespace Record

/-- The field of a value that has to be an object with that field. -/
def fetch (key : String) : Json → Except RecordFault Json
  | .object fields =>
    match fields.lookup key with
    | some value => .ok value
    | none => .error (.missingField key)
  | .string text => .error (.indexedByName (.string text))
  | .list items => .error (.indexedByName (.list items))
  | value => .error (.notSubscriptable value)

def kindOf {Kind : Type} (ofName? : String → Option Kind) : Json → Except RecordFault Kind
  | .string name =>
    match ofName? name with
    | some kind => .ok kind
    | none => .error (.unknownKind (.string name))
  | .list items => .error (.unhashable (.list items))
  | .object fields => .error (.unhashable (.object fields))
  | value => .error (.unknownKind value)

/-- Reads a record. The tag is looked at first, then the span, then the kind. -/
def ofJson (value : Json) : Except RecordFault Record :=
  match value with
  | .object fields => do
    let tag := (fields.lookup "_type").getD .null
    if tag matches .null then throw .noTag
    let start ← fetch "span" value >>= fetch "start"
    let stop ← fetch "span" value >>= fetch "end"
    match tag with
    | .string "Token" =>
      let kind ← fetch "type" value >>= kindOf TokenKind.ofName?
      return .token kind start stop ((fields.lookup "value").getD .null)
    | .string "LexError" =>
      let kind ← fetch "kind" value >>= kindOf ErrorKind.ofName?
      return .error kind start stop ((fields.lookup "text").getD (.string ""))
    | tag => throw (.unknownTag tag)
  | value => .error (.noFields value)

def spanJson (start stop : Json) : Json :=
  .object [("end", stop), ("start", start)]

/-- The fields stand in alphabetical order. -/
def toJson : Record → Json
  | token kind start stop value =>
    .object [("_type", .string "Token"), ("span", spanJson start stop),
      ("type", .string kind.name), ("value", value)]
  | error kind start stop text =>
    .object [("_type", .string "LexError"), ("kind", .string kind.name),
      ("span", spanJson start stop), ("text", text)]

def debug : Record → String
  | token kind _ _ value =>
    if kind.showsValue then "Token(" ++ kind.name ++ ", " ++ value.debug ++ ")"
    else "Token(" ++ kind.name ++ ")"
  | error kind _ _ text =>
    if text.isTruthy then "LexError(" ++ kind.name ++ ", " ++ text.debug ++ ")"
    else "LexError(" ++ kind.name ++ ")"

def payloadJson : Payload → Json
  | .nothing => .null
  | .text s => .string s
  | .number n => .int n

def payload? : Json → Option Payload
  | .null => some .nothing
  | .string s => some (.text s)
  | .int n => some (.number n)
  | _ => none

def ofEntry : Entry → Record
  | .token t => token t.kind (.int t.span.start) (.int t.span.stop) (payloadJson t.value)
  | .error e => error e.kind (.int e.span.start) (.int e.span.stop) (.string e.text)

/-- The entry that a record stands for, when its bounds are integers and its payload is of a kind
that entries carry. -/
def typed? : Record → Option Entry
  | token kind (.int start) (.int stop) value =>
    (payload? value).map fun payload => .token ⟨kind, ⟨start, stop⟩, payload⟩
  | error kind (.int start) (.int stop) (.string text) =>
    some (.error ⟨kind, ⟨start, stop⟩, text⟩)
  | _ => none

@[simp]
theorem payload?_payloadJson (payload : Payload) :
    payload? (payloadJson payload) = some payload := by
  cases payload <;> rfl

@[simp]
theorem typed?_ofEntry (entry : Entry) : (ofEntry entry).typed? = some entry := by
  cases entry <;> simp [ofEntry, typed?]

end Record

/-! ### Streams -/

def printEntries (indent : Option Int) (entries : List Entry) : String :=
  Json.print indent (.list (entries.map fun entry => (Record.ofEntry entry).toJson))

/-- Why a stream is not written: the indent does not fit a signed machine word, or a number has too
many digits. -/
inductive WriteFault where
  | indentTooLarge
  | unwritable (fault : Text.Unwritable)
  deriving DecidableEq, Repr

def WriteFault.message : WriteFault → String
  | indentTooLarge => "cannot fit 'int' into an index-sized integer"
  | unwritable fault => fault.message

def fitsIndex (n : Int) : Bool :=
  -Span.maxLength - 1 ≤ n && n ≤ Span.maxLength

/-- The printed form of a stream, if there is one. The indent is looked at first. -/
def writeEntries (indent : Option Int) (entries : List Entry) : Except WriteFault String :=
  if !indent.all fitsIndex then .error .indentTooLarge
  else if !(entries.flatMap Entry.numbers).all Text.isWritable then
    .error (.unwritable .tooManyDigits)
  else .ok (printEntries indent entries)

inductive StreamFault where
  | json (fault : Json.ReadFault)
  | record (fault : RecordFault)
  deriving Repr

def StreamFault.message : StreamFault → String
  | json fault => fault.message
  | record fault => fault.message

/-- What a value is read through one by one: the items of a list, the names of an object, the
characters of a string. -/
def Json.elements : Json → Except RecordFault (List Json)
  | .list items => .ok items
  | .object fields => .ok (fields.map fun field => .string field.1)
  | .string text => .ok (text.toList.map fun c => .string (String.singleton c))
  | value => .error (.notIterable value)

def readRecords (text : String) : Except StreamFault (List Record) := do
  let value ← (Json.read text).mapError .json
  (value.elements >>= fun items => items.mapM Record.ofJson).mapError .record

/-- The stream that a text holds, when all its records stand for entries. -/
def readEntries? (text : String) : Option (List Entry) :=
  (readRecords text).toOption.bind fun records => records.mapM Record.typed?

end Offside
