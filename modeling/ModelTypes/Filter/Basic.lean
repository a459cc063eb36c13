import ModelTypes.Text.Digits
import ModelTypes.Text.Parsed

/-!
# Text filters

A filter turns the text that it is given into another. Filters that read their input read all of it;
the others leave it to the filters after them.

Each filter covers a part of what the program of its name can do: the arguments that its definition
lists. With any others it fails.
-/

namespace ModelTypes

structure Filter.Outcome where
  output : List Char := []
  unread : List Char := []
  succeeded : Bool := true
  deriving DecidableEq, Repr

abbrev Filter := List String → List Char → Filter.Outcome

namespace Filter

def failure : Outcome :=
  { succeeded := false }

/-- The lines of a text with the line feeds that end them. -/
def lines : List Char → List (List Char)
  | [] => []
  | c :: rest =>
    if c = '\n' then [c] :: lines rest
    else
      match lines rest with
      | first :: others => (c :: first) :: others
      | [] => [[c]]

def copy : Filter
  | [], input | ["-"], input => { output := input }
  | _, _ => failure

/-- The count in `-n 3`, `-n3` or `-3`, if there are no other arguments. -/
def lineCount? : List String → Option (List Char)
  | [] => some "10".toList
  | ["-n", count] => some count.toList
  | [flag] =>
    match flag.toList with
    | '-' :: 'n' :: count => some count
    | '-' :: count => some count
    | _ => none
  | _ => none

/-- The first characters that fit a number of bytes, if they fill it or are the whole text. -/
def firstBytes? : Nat → List Char → Option (List Char)
  | 0, _ | _, [] => some []
  | n + 1, c :: rest =>
    if c.utf8Size ≤ n + 1 then (firstBytes? (n + 1 - c.utf8Size) rest).map (c :: ·) else none

/-- The first lines, or all but the last for a negative count; with `-c`, the first bytes. -/
def head : Filter := fun arguments input =>
  match arguments with
  | ["-c", count] =>
    match Text.natural? count.toList >>= (firstBytes? · input) with
    | some output => { output }
    | none => failure
  | _ =>
    match lineCount? arguments with
    | some ('-' :: count) =>
      match Text.natural? count with
      | some n => { output := ((lines input).take ((lines input).length - n)).flatten }
      | none => failure
    | some count =>
      match Text.natural? count with
      | some n => { output := ((lines input).take n).flatten }
      | none => failure
    | none => failure

/-- The last lines, or those from a number on that is written with a plus. -/
def tail : Filter := fun arguments input =>
  match lineCount? arguments with
  | some ('+' :: count) =>
    match Text.natural? count with
    | some n => { output := ((lines input).drop (n - 1)).flatten }
    | none => failure
  | some count =>
    match Text.natural? count with
    | some n => { output := ((lines input).drop ((lines input).length - n)).flatten }
    | none => failure
  | none => failure

/-! ## Escapes -/

def namedChar? : Char → Option Char
  | 'n' => some '\n'
  | 't' => some '\t'
  | 'r' => some '\r'
  | 'f' => some '\x0c'
  | 'v' => some '\x0b'
  | 'a' => some '\x07'
  | 'b' => some '\x08'
  | '\\' => some '\\'
  | _ => none

def isOctalDigit (c : Char) : Bool :=
  '0' ≤ c && c ≤ '7'

/-- A number whose octal digits begin with those of `n`; `more` of them follow at most. -/
def octal (more n : Nat) (s : List Char) : Parsed Nat (s.length + 1) :=
  match more, s with
  | more + 1, c :: rest =>
    if isOctalDigit c then
      (octal more (8 * n + (c.toNat - '0'.toNat)) rest).longer
    else .nothing n _
  | _, s => .nothing n s

/-- Resolves the named characters and those with a code of three octal digits at most; other
backslashes stay. -/
def unescape (s : List Char) : List Char :=
  match s with
  | '\\' :: c :: rest =>
    match namedChar? c with
    | some d => d :: unescape rest
    | none =>
      if isOctalDigit c then
        match octal 2 (c.toNat - '0'.toNat) rest with
        | ⟨code, after, _⟩ => Char.ofNat code :: unescape after
      else '\\' :: c :: unescape rest
  | c :: rest => c :: unescape rest
  | [] => []
termination_by s.length
decreasing_by all_goals simp only [List.length_cons]; omega

/-- The arguments with blanks between them, and a line feed unless `-n` stands first. -/
def echo : Filter
  | "-n" :: words, input => { output := unescape (" ".intercalate words).toList, unread := input }
  | words, input => { output := unescape (" ".intercalate words).toList ++ ['\n'], unread := input }

def fill : List Char → List String → List Char × List String
  | '%' :: '%' :: rest, texts =>
    let (out, left) := fill rest texts
    ('%' :: out, left)
  | '%' :: 's' :: rest, texts =>
    let (out, left) := fill rest texts.tail
    ((texts.headD "").toList ++ out, left)
  | c :: rest, texts =>
    let (out, left) := fill rest texts
    (c :: out, left)
  | [], texts => ([], texts)

/-- Fills a format again as long as texts remain, `fuel` times at most. -/
def fillAll : Nat → List Char → List String → List Char
  | 0, _, _ => []
  | fuel + 1, format, texts =>
    let (out, left) := fill format texts
    if left = [] ∨ left.length = texts.length then out else out ++ fillAll fuel format left

def printf : Filter
  | format :: texts, input =>
    { output := fillAll (texts.length + 1) (unescape format.toList) texts, unread := input }
  | [], input => { unread := input, succeeded := false }

/-! ## Character sets -/

def charsBetween (first last : Char) : List Char :=
  (List.range (last.toNat + 1 - first.toNat)).map fun i => Char.ofNat (first.toNat + i)

/-- The characters that a set such as `a-z_` names, in order. -/
def charSet : List Char → List Char
  | first :: '-' :: last :: rest => charsBetween first last ++ charSet rest
  | c :: rest => c :: charSet rest
  | [] => []

/-- The character in the place that `c` has in another list, or the last one there. -/
def counterpart (c : Char) : List Char → List Char → Char
  | a :: as, [b] => if c ∈ a :: as then b else c
  | a :: as, b :: bs => if c = a then b else counterpart c as bs
  | _, _ => c

def squeeze (set : List Char) : List Char → List Char
  | c :: d :: rest =>
    let squeezed := squeeze set (d :: rest)
    if c = d ∧ c ∈ set then squeezed else c :: squeezed
  | s => s

/-- Exchanges, deletes (`-d`) or squeezes (`-s`) the characters of a set. -/
def transliterate : Filter
  | ["-d", set], input =>
    { output := input.filter (· ∉ charSet (unescape set.toList)) }
  | ["-s", set], input => { output := squeeze (charSet (unescape set.toList)) input }
  | [source, target], input =>
    if target = "" ∨ source.startsWith "-" then failure
    else
      let source := charSet (unescape source.toList)
      let target := charSet (unescape target.toList)
      { output := input.map (counterpart · source target) }
  | _, _ => failure

end Filter

end ModelTypes
