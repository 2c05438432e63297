namespace ContentQuery.Decimal

inductive Fault where
  | empty
  | invalidDigit
  | tooLarge
  deriving DecidableEq, Repr

def Fault.message : Fault → String
  | .empty => "cannot parse integer from empty string"
  | .invalidDigit => "invalid digit found in string"
  | .tooLarge => "number too large to fit in target type"

def digitValue (c : Char) : Nat := c.toNat - '0'.toNat

/-- Reads digits after a part of the given value, most significant digit first. The first fault
from the left is reported. -/
def readDigits (limit : Nat) : Nat → List Char → Except Fault Nat
  | value, [] => .ok value
  | value, c :: cs =>
      if c.isDigit then
        if value * 10 + digitValue c ≤ limit then
          readDigits limit (value * 10 + digitValue c) cs
        else .error .tooLarge
      else .error .invalidDigit

/-- Reads a whole text: an optional plus sign and one or more ASCII digits, with any number of
leading zeros. A sign alone is a digit that is missing. -/
def read (limit : Nat) : List Char → Except Fault Nat
  | [] => .error .empty
  | ['+'] => .error .invalidDigit
  | ['-'] => .error .invalidDigit
  | '+' :: cs => readDigits limit 0 cs
  | cs => readDigits limit 0 cs

def wordMax : Nat := Nat.pow 2 64 - 1

end ContentQuery.Decimal
