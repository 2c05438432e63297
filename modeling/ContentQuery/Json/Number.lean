import ContentQuery.Json.Fault
import ContentQuery.Text.Decimal

/-!
JSON numbers: their grammar, and the values that are too large for a double. The first digits are
kept exactly, as long as they fit a 64-bit word; a number is out of range when the product of these
digits and a power of ten, both rounded to doubles, rounds to infinity.
-/

namespace ContentQuery.Json

open Decimal

/-- A natural number rounded to the nearest double, ties to even, without a bound on its size. -/
def nearestDouble (n : Nat) : Nat :=
  if n < Nat.pow 2 53 then n
  else
    let unit := Nat.pow 2 (n.log2 - 52)
    let below := n / unit
    let rest := n % unit
    if 2 * rest > unit || (2 * rest == unit && below % 2 == 1) then (below + 1) * unit
    else below * unit

/-- Whether `significand * 10 ^ exponent` is too large for a double. -/
def isOutOfRange (significand : Nat) (exponent : Int) : Bool :=
  significand ≠ 0 && 0 ≤ exponent &&
    (308 < exponent ||
      Nat.pow 2 1024 - Nat.pow 2 970 ≤
        nearestDouble significand * nearestDouble (Nat.pow 10 exponent.toNat))

/-- The digits kept of a number, and the power of ten that they stand at. -/
structure Magnitude where
  significand : Nat
  exponent : Int
  deriving DecidableEq, Repr

/-- Adds digits before the point. From the first one that does not fit, each one only raises the
exponent. -/
def Magnitude.addWhole : Magnitude → List Char → Magnitude
  | m, [] => m
  | m, d :: ds =>
      if m.exponent = 0 ∧ m.significand * 10 + digitValue d ≤ wordMax then
        Magnitude.addWhole ⟨m.significand * 10 + digitValue d, 0⟩ ds
      else Magnitude.addWhole ⟨m.significand, m.exponent + 1⟩ ds

/-- Adds digits after the point. The first one that does not fit is dropped, with those after it. -/
def Magnitude.addFraction : Magnitude → List Char → Magnitude
  | m, [] => m
  | m, d :: ds =>
      if m.significand * 10 + digitValue d ≤ wordMax then
        Magnitude.addFraction ⟨m.significand * 10 + digitValue d, m.exponent - 1⟩ ds
      else m

def exponentMax : Nat := Nat.pow 2 31 - 1

/-- The value of exponent digits, or the digits after the one that makes it too large. -/
def exponentValue : Nat → List Char → Except (List Char) Nat
  | value, [] => .ok value
  | value, d :: ds =>
      if value * 10 + digitValue d ≤ exponentMax then exponentValue (value * 10 + digitValue d) ds
      else .error ds

/-- The parts of a number without its sign. The fraction and the exponent may be without digits. -/
structure Numeral where
  whole : List Char
  fraction : List Char
  isRaised : Bool
  exponent : List Char
  deriving DecidableEq, Repr

def Numeral.check (n : Numeral) (rest : List Char) : Except Fault Unit :=
  let m := (Magnitude.addWhole ⟨0, 0⟩ n.whole).addFraction n.fraction
  match exponentValue 0 n.exponent with
  | .error ds =>
      if m.significand ≠ 0 && n.isRaised then faultHere .numberOutOfRange (ds ++ rest) else .ok ()
  | .ok e =>
      let exponent := if n.isRaised then m.exponent + e else m.exponent - e
      if isOutOfRange m.significand exponent then faultHere .numberOutOfRange rest else .ok ()

def spanDigits (cs : List Char) : List Char × List Char :=
  (cs.takeWhile Char.isDigit, cs.dropWhile Char.isDigit)

/-- Digits before the point: a zero alone, or digits that start with another one. -/
def readWhole : List Char → Except Fault (List Char × List Char)
  | [] => faultHere .endInValue []
  | c :: cs =>
      if !c.isDigit then faultNext .invalidNumber (c :: cs)
      else if c = '0' then
        if (cs.takeWhile Char.isDigit).isEmpty then .ok (['0'], cs)
        else faultNext .invalidNumber cs
      else .ok (spanDigits (c :: cs))

def readFraction : List Char → Except Fault (List Char × List Char)
  | '.' :: cs =>
      match cs.takeWhile Char.isDigit, cs with
      | [], [] => faultHere .endInValue []
      | [], _ => faultNext .invalidNumber cs
      | digits, _ => .ok (digits, cs.dropWhile Char.isDigit)
  | cs => .ok ([], cs)

def readExponentDigits (isRaised : Bool) (cs : List Char) :
    Except Fault (Bool × List Char × List Char) :=
  match cs.takeWhile Char.isDigit, cs with
  | [], [] => faultHere .endInValue []
  | [], _ => faultNext .invalidNumber cs
  | digits, _ => .ok (isRaised, digits, cs.dropWhile Char.isDigit)

/-- An exponent, if there is one: whether it raises the value, and its digits. -/
def readExponent : List Char → Except Fault (Bool × List Char × List Char)
  | c :: cs =>
      if c = 'e' || c = 'E' then
        match cs with
        | '+' :: ds => readExponentDigits true ds
        | '-' :: ds => readExponentDigits false ds
        | ds => readExponentDigits true ds
      else .ok (true, [], c :: cs)
  | [] => .ok (true, [], [])

def readNumeral (cs : List Char) : Except Fault (Numeral × List Char) := do
  let (whole, cs) ← readWhole cs
  let (fraction, cs) ← readFraction cs
  let (isRaised, exponent, cs) ← readExponent cs
  let numeral : Numeral := ⟨whole, fraction, isRaised, exponent⟩
  numeral.check cs
  return (numeral, cs)

/-- A number, as the text that it is written as. -/
def readNumber (cs : List Char) : Except Fault (String × List Char) := do
  let (_, rest) ← readNumeral (if cs.head? = some '-' then cs.tail else cs)
  return (String.ofList (cs.take (cs.length - rest.length)), rest)

end ContentQuery.Json
