import ModelTypes.Json.Numeral
import ModelTypes.Text.Digits

/-!
# TOML numbers and times

Readers that check numbers, dates and times and give the text after them; what they denote does not
matter here.
-/

namespace ModelTypes.Toml

/-- Digits that may have single underscores between them, without the underscores. -/
def digitRun? (isDigit : Char → Bool) : List Char → Option (List Char × List Char)
  | [] => none
  | c :: rest =>
    if !isDigit c then none
    else
      match rest with
      | [] => some ([c], [])
      | d :: rest' =>
        if d = '_' then (digitRun? isDigit rest').map fun (digits, after) => (c :: digits, after)
        else if isDigit d then
          (digitRun? isDigit (d :: rest')).map fun (digits, after) => (c :: digits, after)
        else some ([c], d :: rest')

/-- Whether a minus stands here, and the text after the sign, if there is one. -/
def sign : List Char → Bool × List Char
  | '-' :: rest => (true, rest)
  | '+' :: rest => (false, rest)
  | s => (false, s)

/-- The whole part of a decimal number, without leading zeros. -/
def whole? : List Char → Option (List Char × List Char)
  | '0' :: rest => some (['0'], rest)
  | s => digitRun? Char.isDigit s

/-! ## Numbers -/

def valueIn (base : Nat) (digits : List Char) : Nat :=
  digits.foldl (fun n c => base * n + (Text.hexDigit? c).getD 0) 0

/-- Integers are signed and have 64 bits. -/
def integer? (s : List Char) : Option (List Char) :=
  let inBase (base : Nat) (isDigit : Char → Bool) (s : List Char) : Option (List Char) := do
    let (digits, rest) ← digitRun? isDigit s
    if valueIn base digits < 0x8000000000000000 then some rest else none
  match s with
  | '0' :: 'x' :: rest => inBase 16 (fun c => (Text.hexDigit? c).isSome) rest
  | '0' :: 'o' :: rest => inBase 8 (fun c => '0' ≤ c && c ≤ '7') rest
  | '0' :: 'b' :: rest => inBase 2 (fun c => c == '0' || c == '1') rest
  | s => do
    let (negative, s) := sign s
    let (digits, rest) ← whole? s
    let n := Text.ofDigits digits
    if n < 0x8000000000000000 ∨ (negative ∧ n = 0x8000000000000000) then some rest else none

def fraction? : List Char → Option (List Char × List Char)
  | '.' :: rest => digitRun? Char.isDigit rest
  | _ => none

def exponent? : List Char → Option ((Bool × List Char) × List Char)
  | c :: rest =>
    if c = 'e' ∨ c = 'E' then
      let (negative, rest) := sign rest
      (digitRun? Char.isDigit rest).map fun (digits, after) => ((negative, digits), after)
    else none
  | [] => none

def isFinite (whole : List Char) (fraction : Option (List Char))
    (exponent : Option (Bool × List Char)) : Bool :=
  (Json.Numeral.double? ⟨false, whole, fraction, exponent⟩).isSome

/-- Numbers with a fraction or an exponent, infinity, and `nan`; a number may not be too large. -/
def float? (s : List Char) : Option (List Char) :=
  let (negative, s) := sign s
  match s with
  | 'i' :: 'n' :: 'f' :: rest => some rest
  | 'n' :: 'a' :: 'n' :: rest => some rest
  | s => do
    let (whole, rest) ← whole? s
    match fraction? rest with
    | some (digits, rest) =>
      match exponent? rest with
      | some (e, rest) => if negative || isFinite whole digits e then some rest else none
      | none => if negative || isFinite whole digits none then some rest else none
    | none =>
      let (e, rest) ← exponent? rest
      if negative || isFinite whole none e then some rest else none

/-! ## Dates and times -/

def field? (digits low high : Nat) (s : List Char) : Option (Nat × List Char) := do
  let n ← Text.natural? (s.take digits)
  if digits ≤ s.length ∧ low ≤ n ∧ n ≤ high then some (n, s.drop digits) else none

def sign? (c : Char) : List Char → Option (List Char)
  | d :: rest => if d = c then some rest else none
  | [] => none

def daysIn (year month : Nat) : Nat :=
  if month = 2 then
    if year % 4 = 0 ∧ (year % 100 ≠ 0 ∨ year % 400 = 0) then 29 else 28
  else if month ∈ [4, 6, 9, 11] then 30
  else 31

def date? (s : List Char) : Option (List Char) := do
  let (year, s) ← field? 4 0 9999 s
  let (month, s) ← field? 2 1 12 (← sign? '-' s)
  let (_, s) ← field? 2 1 (daysIn year month) (← sign? '-' s)
  return s

def time? (s : List Char) : Option (List Char) := do
  let (_, s) ← field? 2 0 23 s
  let (_, s) ← field? 2 0 59 (← sign? ':' s)
  let (_, s) ← field? 2 0 60 (← sign? ':' s)
  match s with
  | '.' :: rest =>
    if rest.head?.any Char.isDigit then some (rest.dropWhile Char.isDigit) else none
  | s => some s

def skipOffset (s : List Char) : List Char :=
  match s with
  | c :: rest =>
    if c = 'Z' ∨ c = 'z' then rest
    else if c = '+' ∨ c = '-' then
      let after := do
        let (_, rest) ← field? 2 0 23 rest
        let (_, rest) ← field? 2 0 59 (← sign? ':' rest)
        return rest
      after.getD s
    else s
  | [] => s

def dateTime? (s : List Char) : Option (List Char) :=
  match date? s with
  | none => time? s
  | some rest =>
    match rest with
    | c :: after =>
      if c ∈ ['T', 't', ' '] then
        match time? after with
        | some rest => some (skipOffset rest)
        | none => some rest
      else some rest
    | [] => some []

def scalar? (s : List Char) : Option (List Char) :=
  dateTime? s <|> float? s <|> integer? s

end ModelTypes.Toml
