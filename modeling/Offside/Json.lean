import Offside.Text.Decimal
import Offside.Text.Quoted

/-!
# JSON values

A value keeps the order of an object's fields. A number with a fraction or an exponent is kept as it
was written.
-/

namespace Offside

inductive Json where
  | null
  | bool (value : Bool)
  | int (value : Int)
  | real (literal : String)
  | string (text : String)
  | list (items : List Json)
  | object (fields : List (String × Json))
  deriving Repr, BEq

namespace Json

/-- All digits of a number as one, and the power of ten that they are to be multiplied with. -/
def scientific (literal : List Char) : Nat × Int :=
  let mantissa := literal.takeWhile fun c => c != 'e' && c != 'E'
  let fraction := (mantissa.dropWhile (· != '.')).tail
  let power := (literal.drop mantissa.length).tail
  let places : Int := Nat.ofDigitChars 10 (power.filter Text.isDigit) 0
  (Nat.ofDigitChars 10 (mantissa.filter Text.isDigit) 0,
    (if power.head? = some '-' then -places else places) - fraction.length)

/-- Half of the least number that is stored is two to the power of minus this. -/
@[irreducible]
def leastPower : Nat := 1075

/-- A number that is no larger than half of the least one is rounded to zero. Where the number of
its digits tells, no power of ten is formed. -/
def underflows (digits : Nat) (exponent : Int) : Bool :=
  let places := (-exponent).toNat
  (Nat.toDigits 10 digits).length + 324 ≤ places ||
    digits * Nat.pow 2 leastPower ≤ Nat.pow 10 places

/-- A value that is empty, zero or nothing does not count as true. A real without digits is infinite
or no number. -/
def isTruthy : Json → Bool
  | null => false
  | bool value => value
  | int value => value != 0
  | real literal =>
    let (digits, exponent) := scientific literal.toList
    !literal.toList.any Text.isDigit || !underflows digits exponent
  | string text => !text.isEmpty
  | list items => !items.isEmpty
  | object fields => !fields.isEmpty

def typeName : Json → String
  | null => "NoneType"
  | bool _ => "bool"
  | int _ => "int"
  | real _ => "float"
  | string _ => "str"
  | list _ => "list"
  | object _ => "dict"

mutual

def debug : Json → String
  | null => "None"
  | bool value => if value then "True" else "False"
  | int value => toString value
  | real literal => literal
  | string text => Text.quoted text
  | list items => "[" ++ debugItems items ++ "]"
  | object fields => "\x7b" ++ debugFields fields ++ "\x7d"

def debugItems : List Json → String
  | [] => ""
  | [item] => item.debug
  | item :: items => item.debug ++ ", " ++ debugItems items

def debugFields : List (String × Json) → String
  | [] => ""
  | [(key, value)] => Text.quoted key ++ ": " ++ value.debug
  | (key, value) :: fields =>
    Text.quoted key ++ ": " ++ value.debug ++ ", " ++ debugFields fields

end

/-- The value of a field, or nothing also when the value is no object. -/
def field? (key : String) : Json → Option Json
  | object fields => fields.lookup key
  | _ => none

/-- A field that is there keeps its place and gets the new value; a new one comes last. -/
def put (key : String) (value : Json) : List (String × Json) → List (String × Json)
  | [] => [(key, value)]
  | field :: fields =>
    if field.1 = key then (key, value) :: fields else field :: put key value fields

end Json

end Offside
