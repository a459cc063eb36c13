/-!
# Digits

The numbers that decimal and hexadecimal digits denote.
-/

namespace ModelTypes.Text

def ofDigits (digits : List Char) : Nat :=
  Nat.ofDigitChars 10 digits 0

def natural? (s : List Char) : Option Nat :=
  if s ≠ [] ∧ s.all Char.isDigit then some (ofDigits s) else none

def hexDigit? (c : Char) : Option Nat :=
  if '0' ≤ c ∧ c ≤ '9' then some (c.toNat - '0'.toNat)
  else if 'a' ≤ c ∧ c ≤ 'f' then some (c.toNat - 'a'.toNat + 10)
  else if 'A' ≤ c ∧ c ≤ 'F' then some (c.toNat - 'A'.toNat + 10)
  else none

/-- The number that hexadecimal digits denote after the digits for `n`. -/
def hexNumber? (n : Nat) : List Char → Option Nat
  | [] => some n
  | c :: cs => do hexNumber? (16 * n + (← hexDigit? c)) cs

end ModelTypes.Text
