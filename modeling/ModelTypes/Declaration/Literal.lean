import ModelTypes.Text.Digits
import ModelTypes.Text.Gap
import ModelTypes.Text.Parsed

/-!
# String literals

A literal stands between two equal quotes; a backslash escapes. Reading decodes the escapes,
writing chooses the quote that needs fewer of them and leaves no control character in the text.
-/

namespace ModelTypes.Literal

def isQuote (c : Char) : Bool :=
  c == '"' || c == '\''

def alternate (quote : Char) : Char :=
  if quote = '"' then '\'' else '"'

def escaped : Char → Char
  | 'n' => '\n'
  | 'r' => '\r'
  | 't' => '\t'
  | 'b' => '\x08'
  | 'f' => '\x0c'
  | 'v' => '\x0b'
  | '0' => '\x00'
  | c => c

/-- The character with a code; surrogates and codes beyond the last character have none. -/
def charOfCode? (n : Nat) : Option Char :=
  if n.isValidChar then some (Char.ofNat n) else none

def namedChar? : List Char → Option Char
  | [] => none
  | digits => (Text.hexNumber? 0 digits).bind charOfCode?

theorem length_lt_of_dropWhile_eq_cons {p : Char → Bool} {s rest : List Char} {c : Char}
    (h : s.dropWhile p = c :: rest) : rest.length < s.length := by
  have := Text.length_dropWhile_le p s
  simp only [h, List.length_cons] at this
  omega

/-- What follows `\u`: any digits in braces, or four digits. -/
def codePoint? : (s : List Char) → Option (Parsed Char s.length)
  | '{' :: rest =>
    match h : rest.dropWhile (· ≠ '}') with
    | '}' :: after => do
      let c ← namedChar? (rest.takeWhile (· ≠ '}'))
      some (.after '{' ⟨c, after, length_lt_of_dropWhile_eq_cons h⟩)
    | _ => none
  | a :: b :: c :: d :: rest => do
    let char ← namedChar? [a, b, c, d]
    some (.after a (.after b (.after c (.char char d rest))))
  | _ => none

/-- Decodes what follows a backslash. A `\u` that names no character stands for `u`. -/
def unescape : (s : List Char) → Option (Parsed Char s.length)
  | [] => none
  | c :: rest =>
    match if c = 'u' then codePoint? rest else none with
    | some p => some (p.after c)
    | none => some (.char (escaped c) c rest)

/-- Reads the rest of a literal, to the closing quote. A line feed or the end of the text before
it is an error. -/
def readRest? (quote : Char) (s : List Char) : Option (Parsed (List Char) s.length) :=
  match s with
  | [] => none
  | c :: rest =>
    if c = quote then some (.char [] c rest)
    else if c = '\\' then
      match unescape rest with
      | none => none
      | some ⟨d, rest', h⟩ => do
        let p ← readRest? quote rest'
        some (((p.map (d :: ·)).within h).after c)
    else if c = '\n' then none
    else do
      let p ← readRest? quote rest
      some ((p.map (c :: ·)).after c)
termination_by s.length

/-- The control characters of Unicode (category `Cc`). -/
def isControl (c : Char) : Bool :=
  c.toNat < 0x20 || (0x7F ≤ c.toNat && c.toNat < 0xA0)

def encodeChar (quote : Char) (c : Char) : List Char :=
  if c = '\\' then ['\\', '\\']
  else if c = '\n' then ['\\', 'n']
  else if c = '\r' then ['\\', 'r']
  else if c = '\t' then ['\\', 't']
  else if c = quote then ['\\', c]
  else if isControl c then ['\\', 'u', '{'] ++ Nat.toDigits 16 c.toNat ++ ['}']
  else [c]

/-- The preferred quote, unless the text holds more of it than of the other. -/
def quoteFor (preferred : Char) (s : List Char) : Char :=
  if s.count preferred > s.count (alternate preferred) then alternate preferred else preferred

def encode (preferred : Char) (s : List Char) : List Char :=
  let quote := quoteFor preferred s
  [quote] ++ s.flatMap (encodeChar quote) ++ [quote]

end ModelTypes.Literal
