import Offside.Json

/-!
# Printed JSON

The printed form is ASCII: all else is escaped, a character beyond the basic plane as a surrogate
pair. It stands on one line, or has one line for each item and field, with so many blanks for each
level; fewer than none is none.
-/

namespace Offside.Json

def codeUnit (n : Nat) : List Char :=
  '\\' :: 'u' :: Text.hexDigits 4 n

def escape (c : Char) : List Char :=
  if c = '"' ∨ c = '\\' then ['\\', c]
  else if ' ' ≤ c ∧ c ≤ '~' then [c]
  else if c = '\n' then ['\\', 'n']
  else if c = '\r' then ['\\', 'r']
  else if c = '\t' then ['\\', 't']
  else if c = '\x08' then ['\\', 'b']
  else if c = '\x0C' then ['\\', 'f']
  else if c.toNat < 0x10000 then codeUnit c.toNat
  else
    codeUnit (0xD800 + (c.toNat - 0x10000) / 0x400) ++
      codeUnit (0xDC00 + (c.toNat - 0x10000) % 0x400)

def printString (text : String) : List Char :=
  '"' :: text.toList.flatMap escape ++ ['"']

/-- What stands before the first item of a level and, one level up, after the last. -/
def lineBreak (indent : Option Int) (level : Nat) : List Char :=
  match indent with
  | none => []
  | some blanks => '\n' :: List.replicate (blanks.toNat * level) ' '

/-- What stands between two items of a level. -/
def separator (indent : Option Int) (level : Nat) : List Char :=
  match indent with
  | none => [',', ' ']
  | some _ => ',' :: lineBreak indent level

mutual

def printValue (indent : Option Int) (level : Nat) : Json → List Char
  | null => "null".toList
  | bool value => if value then "true".toList else "false".toList
  | int value => (toString value).toList
  | real literal => literal.toList
  | string text => printString text
  | list [] => ['[', ']']
  | list (item :: items) =>
    '[' :: lineBreak indent (level + 1) ++ printValue indent (level + 1) item ++
      printItems indent (level + 1) items ++ lineBreak indent level ++ [']']
  | object [] => ['\x7b', '\x7d']
  | object ((key, value) :: fields) =>
    '\x7b' :: lineBreak indent (level + 1) ++ printString key ++ [':', ' '] ++
      printValue indent (level + 1) value ++ printFields indent (level + 1) fields ++
      lineBreak indent level ++ ['\x7d']

/-- The items after the first of their level. -/
def printItems (indent : Option Int) (level : Nat) : List Json → List Char
  | [] => []
  | item :: items =>
    separator indent level ++ printValue indent level item ++ printItems indent level items

/-- The fields after the first of their level. -/
def printFields (indent : Option Int) (level : Nat) : List (String × Json) → List Char
  | [] => []
  | (key, value) :: fields =>
    separator indent level ++ printString key ++ [':', ' '] ++ printValue indent level value ++
      printFields indent level fields

end

def print (indent : Option Int) (value : Json) : String :=
  String.ofList (printValue indent 0 value)

end Offside.Json
