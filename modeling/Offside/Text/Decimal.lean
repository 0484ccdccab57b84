/-!
# Decimal numbers

A digit string is turned into a number when it is not too long to be converted. The limit is on the
number of digits as written, leading zeros included. It is the same for numbers that are written
out.
-/

namespace Offside.Text

def isDigit (c : Char) : Bool :=
  '0' ≤ c && c ≤ '9'

/-- The longest digit string that is converted. -/
def digitLimit : Nat := 4300

structure TooManyDigits where
  count : Nat
  deriving DecidableEq, Repr

def TooManyDigits.message (fault : TooManyDigits) : String :=
  "Exceeds the limit (" ++ toString digitLimit ++
    " digits) for integer string conversion: value has " ++ toString fault.count ++
    " digits; use sys.set_int_max_str_digits() to increase the limit"

def number? (digits : List Char) : Except TooManyDigits Nat :=
  if digits.length ≤ digitLimit then .ok (Nat.ofDigitChars 10 digits 0)
  else .error ⟨digits.length⟩

inductive Unwritable where
  | tooManyDigits
  deriving DecidableEq, Repr

def Unwritable.message : Unwritable → String
  | .tooManyDigits =>
    "Exceeds the limit (" ++ toString digitLimit ++
      " digits) for integer string conversion; " ++
        "use sys.set_int_max_str_digits() to increase the limit"

/-- The sign of a number does not count. -/
def isWritable (n : Int) : Bool :=
  (Nat.toDigits 10 n.natAbs).length ≤ digitLimit

end Offside.Text
