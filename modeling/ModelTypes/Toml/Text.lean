import ModelTypes.Text.Digits

/-!
# TOML texts

Strings in their four forms, and what stands between values: blanks, comments and line ends.
-/

namespace ModelTypes.Toml

def isBlank (c : Char) : Bool :=
  c == ' ' || c == '\t'

def skipBlanks (s : List Char) : List Char :=
  s.dropWhile isBlank

/-- Whether a character can stand in a comment or, unless it has a meaning there, in a string. -/
def isPlain (c : Char) : Bool :=
  c == '\t' || (' ' ≤ c && c ≤ '~') || '\x80' ≤ c

def newline? : List Char → Option (List Char)
  | '\n' :: rest => some rest
  | '\r' :: '\n' :: rest => some rest
  | _ => none

def skipComment : List Char → List Char
  | '#' :: rest => rest.dropWhile isPlain
  | s => s

def lineEnd? (s : List Char) : Option (List Char) :=
  match skipComment (skipBlanks s) with
  | [] => some []
  | s => newline? s

def skipLines : Nat → List Char → List Char
  | 0, s => s
  | fuel + 1, s =>
    let s := skipComment (skipBlanks s)
    match newline? s with
    | some rest => skipLines fuel rest
    | none => s

/-! ## Escapes -/

def codePoint? (digits : Nat) (s : List Char) : Option (Char × List Char) := do
  let code ← Text.hexNumber? 0 (s.take digits)
  if (s.take digits).length = digits ∧ code.isValidChar then
    some (Char.ofNat code, s.drop digits)
  else none

def escape? : List Char → Option (Char × List Char)
  | 'b' :: rest => some ('\x08', rest)
  | 't' :: rest => some ('\t', rest)
  | 'n' :: rest => some ('\n', rest)
  | 'f' :: rest => some ('\x0c', rest)
  | 'r' :: rest => some ('\r', rest)
  | '"' :: rest => some ('"', rest)
  | '\\' :: rest => some ('\\', rest)
  | 'u' :: rest => codePoint? 4 rest
  | 'U' :: rest => codePoint? 8 rest
  | _ => none

def escapedLineEnd? (s : List Char) : Option (List Char) := do
  let rest ← newline? (skipBlanks s)
  return skip rest
where
  skip : List Char → List Char
    | ' ' :: rest => skip rest
    | '\t' :: rest => skip rest
    | '\n' :: rest => skip rest
    | '\r' :: '\n' :: rest => skip rest
    | s => s

/-! ## Strings -/

/-- The rest of a string on one line; `quote` ends it, and in double quotes escapes are resolved.
`fuel` bounds the characters. -/
def lineString? (quote : Char) : Nat → List Char → Option (List Char × List Char)
  | 0, _ => none
  | _, [] => none
  | fuel + 1, c :: rest =>
    if c = quote then some ([], rest)
    else if c = '\\' ∧ quote = '"' then do
      let (d, rest) ← escape? rest
      let (text, after) ← lineString? quote fuel rest
      return (d :: text, after)
    else if isPlain c then (lineString? quote fuel rest).map fun (text, after) => (c :: text, after)
    else none

/-- The rest of a string over several lines. Three quotes end it; one or two more before them, or
anywhere else, are part of it. `fuel` bounds the characters. -/
def blockString? (quote : Char) : Nat → List Char → Option (List Char × List Char)
  | 0, _ => none
  | _, [] => none
  | fuel + 1, c :: rest =>
    let s := c :: rest
    if c = quote then
      let run := (s.takeWhile (· = quote)).length
      if run < 3 then
        (blockString? quote fuel (s.drop run)).map fun (text, after) =>
          (List.replicate run quote ++ text, after)
      else if run ≤ 5 then some (List.replicate (run - 3) quote, s.drop run)
      else none
    else if c = '\\' ∧ quote = '"' then
      match escapedLineEnd? rest with
      | some rest => blockString? quote fuel rest
      | none => do
        let (d, rest) ← escape? rest
        let (text, after) ← blockString? quote fuel rest
        return (d :: text, after)
    else
      match newline? s with
      | some rest => (blockString? quote fuel rest).map fun (text, after) => ('\n' :: text, after)
      | none =>
        if isPlain c then (blockString? quote fuel rest).map fun (text, after) => (c :: text, after)
        else none

def isQuote (c : Char) : Bool :=
  c == '"' || c == '\''

def string? : List Char → Option (List Char × List Char)
  | a :: b :: c :: rest =>
    if isQuote a then
      if a = b ∧ b = c then blockString? a (rest.length + 1) ((newline? rest).getD rest)
      else lineString? a (rest.length + 3) (b :: c :: rest)
    else none
  | [a, b] => if isQuote a ∧ a = b then some ([], []) else none
  | _ => none

/-! ## Keys -/

def isKeyChar (c : Char) : Bool :=
  c.isAlphanum || c == '_' || c == '-'

/-- A bare or quoted key; quoted keys stand on one line. -/
def simpleKey? : List Char → Option (String × List Char)
  | [] => none
  | c :: rest =>
    if isQuote c then
      (lineString? c (rest.length + 1) rest).map fun (text, after) => (String.ofList text, after)
    else if isKeyChar c then
      some (String.ofList (c :: rest.takeWhile isKeyChar), rest.dropWhile isKeyChar)
    else none

def keysUpTo? : Nat → List Char → Option (List String × List Char)
  | 0, _ => none
  | fuel + 1, s => do
    let (key, rest) ← simpleKey? (skipBlanks s)
    match skipBlanks rest with
    | '.' :: rest => (keysUpTo? fuel rest).map fun (keys, after) => (key :: keys, after)
    | rest => some ([key], rest)

def maxKeyParts : Nat := 80

def keys? (s : List Char) : Option (List String × List Char) :=
  keysUpTo? (maxKeyParts - 1) s

end ModelTypes.Toml
