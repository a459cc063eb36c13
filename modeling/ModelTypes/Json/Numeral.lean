import ModelTypes.Text.Digits

/-!
# Numerals

A JSON number as written, and what it counts as: whole numbers that fit 64 bits are exact, all
others are doubles. A numeral too large for a double has no value.
-/

namespace ModelTypes.Json

/-- A number as written, without leading zeros; `fraction` and `exponent` hold one digit or more. -/
structure Numeral where
  negative : Bool
  whole : List Char
  fraction : Option (List Char)
  exponent : Option (Bool × List Char)
  deriving DecidableEq, Repr

inductive Number where
  /-- A whole number below `2 ^ 64`. -/
  | natural (n : Nat)
  /-- The negative of a whole number from `1` to `2 ^ 63`. -/
  | negative (n : Nat)
  | double (x : Float)

namespace Numeral

/-- Appends digits to a significand while it fits 64 bits; gives the digits that did not fit. -/
def absorb (n : Nat) : List Char → Nat × List Char
  | [] => (n, [])
  | c :: cs =>
    let next := 10 * n + (c.toNat - '0'.toNat)
    if next < 0x10000000000000000 then absorb next cs else (n, c :: cs)

def powerOfTen (k : Nat) : Float :=
  Float.ofScientific 1 false k

def maxPower : Nat := 308

/-- Divides by a power of ten, in steps that doubles can represent. -/
def divideByPower (x : Float) (k : Nat) : Float :=
  if k ≤ maxPower then x / powerOfTen k
  else if x == 0 then x
  else divideByPower (x / powerOfTen maxPower) (k - maxPower)
termination_by k
decreasing_by simp only [maxPower] at *; omega

def scale? (significand : Nat) (exponent : Int) : Option Float :=
  let x := significand.toUInt64.toFloat
  match exponent with
  | .ofNat k =>
    if k ≤ maxPower then
      let y := x * powerOfTen k
      if y.isInf then none else some y
    else if x == 0 then some x else none
  | .negSucc k => some (divideByPower x (k + 1))

def maxExponent : Nat := 0x7FFFFFFF

def double? (n : Numeral) : Option Float :=
  let (significand, dropped) := absorb 0 n.whole
  let (significand, exponent) : Nat × Int :=
    match n.fraction with
    | none => (significand, dropped.length)
    | some digits =>
      let (wider, unused) := absorb significand digits
      (wider, (dropped.length : Int) - ((digits.length : Int) - unused.length))
  let magnitude :=
    match n.exponent with
    | none => scale? significand exponent
    | some (minus, digits) =>
      let e := Text.ofDigits digits
      if e > maxExponent then if significand ≠ 0 ∧ !minus then none else some 0
      else scale? significand (if minus then exponent - e else exponent + e)
  magnitude.map fun x => if n.negative then -x else x

def number? (n : Numeral) : Option Number :=
  let exact :=
    if n.fraction.isNone ∧ n.exponent.isNone then
      let whole := Text.ofDigits n.whole
      if n.negative then
        if 0 < whole ∧ whole ≤ 0x8000000000000000 then some (.negative whole) else none
      else if whole < 0x10000000000000000 then some (.natural whole) else none
    else none
  match exact with
  | some number => some number
  | none => n.double?.map .double

/-- Whether the number is zero, or so small that its double is. -/
def isZero (n : Numeral) : Bool :=
  match n.number? with
  | some (.natural k) => k == 0
  | some (.double x) => x == 0
  | _ => false

end Numeral

end ModelTypes.Json
