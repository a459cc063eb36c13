import ModelTypes.Template.Basic
import ModelTypes.Text.Gap
import ModelTypes.Text.Parsed

/-!
# Template tokens

A template text is a sequence of plain text and tags. A backslash keeps two braces from being a
tag, and a backslash before it is itself kept. A tag of a block or a comment that is alone on its
line takes the line with it.

Tags are values in two or three braces or behind `&`, calls of helpers, blocks with one alternative,
and comments; operands are paths, loop variables and texts in quotes. The rest of the template
language is left out: partials, decorators, raw and inverted blocks, chained alternatives, block
parameters, named arguments, subexpressions, and `~` for the blanks around a tag. Numbers and flags
as arguments are read as paths.
-/

namespace ModelTypes.Template

open Text (skipGap length_skipGap_le length_dropWhile_le)

inductive Tag where
  | print (operand : Operand)
  | call (helper : String) (arguments : List Operand)
  | openBlock (helper : String) (arguments : List Operand)
  | alternative
  | closeBlock (helper : String)
  | comment
  deriving DecidableEq, Repr

inductive Token where
  | text (s : List Char)
  | tag (t : Tag)
  deriving DecidableEq, Repr

namespace Scan

/-! ## Paths and operands -/

def isNameChar (c : Char) : Bool :=
  c.isAlphanum || c == '_' || c == '$' || c == '-' || 0x80 ≤ c.toNat

def isPathSeparator (c : Char) : Bool :=
  c == '.' || c == '/'

def name? (s : List Char) : Option (Parsed (List Char) s.length) :=
  match s with
  | [] => none
  | c :: cs =>
    if isNameChar c then
      some (.run (c :: cs.takeWhile isNameChar) isNameChar c cs)
    else none

/-- A key of a path: a name, or any text in brackets. -/
def key? (s : List Char) : Option (Parsed (List Char) s.length) :=
  match s with
  | '[' :: rest =>
    match h : rest.dropWhile (· ≠ ']') with
    | _ :: after => some ⟨rest.takeWhile (· ≠ ']'), after, by
        have := length_dropWhile_le (· ≠ ']') rest
        simp only [h, List.length_cons] at this ⊢
        omega⟩
    | [] => none
  | s => name? s

def furtherKeys (s : List Char) : Parsed (List (List Char)) (s.length + 1) :=
  match s with
  | [] => .nothing [] []
  | c :: cs =>
    if isPathSeparator c then
      match key? cs with
      | some ⟨key, rest, h⟩ =>
        ((furtherKeys rest).map (key :: ·)).widen (Nat.le_succ_of_le (Nat.le_succ_of_le h))
      | none => .nothing [] (c :: cs)
    else .nothing [] (c :: cs)
termination_by s.length
decreasing_by exact Nat.lt_succ_of_lt h

def stepsUp : List Char → Nat × List Char
  | '.' :: '.' :: c :: rest =>
    if isPathSeparator c then
      let (n, after) := stepsUp rest
      (n + 1, after)
    else (0, '.' :: '.' :: c :: rest)
  | s => (0, s)

/-- A path without a mark of the current context in front. -/
def withoutThis : List Char → List Char
  | '.' :: '/' :: rest => rest
  | 't' :: 'h' :: 'i' :: 's' :: c :: rest =>
    if isPathSeparator c then rest else 't' :: 'h' :: 'i' :: 's' :: c :: rest
  | s => s

def path? (s : List Char) : Option (Operand × List Char) := do
  let s := withoutThis s
  let isLocal := s.head? == some '@'
  let (up, s) := stepsUp (if isLocal then s.tail else s)
  let ⟨first, afterFirst, _⟩ ← key? s
  let ⟨others, rest, _⟩ := furtherKeys afterFirst
  let keys := ((first :: others).map String.ofList).filter (· ≠ "this")
  if isLocal then
    match keys with
    | name :: _ => some (.loop up name, rest)
    | [] => none
  else some (.path up keys, rest)

/-- A text in quotes, without escapes. -/
def quoted? : List Char → Option (Operand × List Char)
  | c :: rest =>
    if c = '"' ∨ c = '\'' then
      match rest.dropWhile (· ≠ c) with
      | _ :: after => some (.text (String.ofList (rest.takeWhile (· ≠ c))), after)
      | [] => none
    else none
  | [] => none

def operand? (s : List Char) : Option (Operand × List Char) :=
  quoted? s <|> path? s

/-- Whether the text begins with a word that is no argument. -/
def atKeyword (s : List Char) : Bool :=
  let word := s.takeWhile isNameChar
  word == "as".toList || word == "else".toList

/-- Arguments, each after a gap or at once, until something else follows; `fuel` bounds their
number. -/
def argumentsUpTo : Nat → List Char → List Operand × List Char
  | 0, s => ([], s)
  | fuel + 1, s =>
    if atKeyword (skipGap s) then ([], s)
    else
      match operand? (skipGap s) with
      | none => ([], s)
      | some (first, rest) =>
        let (others, after) := argumentsUpTo fuel rest
        (first :: others, after)

def arguments (s : List Char) : List Operand × List Char :=
  argumentsUpTo s.length s

/-! ## Tags -/

def after? (front : List Char) (s : List Char) : Option (List Char) :=
  dropFront? front (skipGap s)

def printed? (close : List Char) (s : List Char) : Option (Tag × List Char) := do
  let (operand, afterOperand) ← path? (skipGap s)
  some (.print operand, ← after? close afterOperand)

def call? (close : List Char) (s : List Char) : Option (Tag × List Char) := do
  let ⟨name, afterName, _⟩ ← name? (skipGap s)
  match arguments afterName with
  | ([], _) => none
  | (args, afterArguments) =>
    some (.call (String.ofList name) args, ← after? close afterArguments)

def value? (close : List Char) (s : List Char) : Option (Tag × List Char) :=
  call? close s <|> printed? close s

def afterFirst? (mark : List Char) : List Char → Option (List Char)
  | [] => none
  | c :: cs =>
    match dropFront? mark (c :: cs) with
    | some rest => some rest
    | none => afterFirst? mark cs

/-- The text after a comment, of which `{{!` has been read. -/
def afterComment? (s : List Char) : Option (List Char) :=
  let long := do afterFirst? "--\x7d\x7d".toList (← after? "--".toList s)
  long <|> afterFirst? "\x7d\x7d".toList s

def tag? (s : List Char) : Option (Tag × List Char) :=
  match s with
  | '!' :: rest => (afterComment? rest).map (.comment, ·)
  | s =>
    match skipGap s with
    | '{' :: rest => value? "\x7d\x7d\x7d".toList rest
    | '&' :: rest => printed? "\x7d\x7d".toList rest
    | '#' :: rest => do
      let ⟨helper, afterHelper, _⟩ ← name? (skipGap rest)
      let (args, afterArguments) := arguments afterHelper
      some (.openBlock (String.ofList helper) args, ← after? "\x7d\x7d".toList afterArguments)
    | '/' :: rest => do
      let ⟨helper, afterHelper, _⟩ ← name? (skipGap rest)
      some (.closeBlock (String.ofList helper), ← after? "\x7d\x7d".toList afterHelper)
    | '^' :: rest => do some (.alternative, ← after? "\x7d\x7d".toList rest)
    | s =>
      let alternative := do after? "\x7d\x7d".toList (← dropFront? "else".toList s)
      match alternative with
      | some rest => some (.alternative, rest)
      | none => value? "\x7d\x7d".toList s

/-! ## Text -/

def plain : List Char → List Char × List Char
  | [] => ([], [])
  | '{' :: '{' :: rest => ([], '{' :: '{' :: rest)
  | '\\' :: '{' :: '{' :: '{' :: '{' :: rest =>
    let (text, after) := plain rest
    ('{' :: '{' :: '{' :: '{' :: text, after)
  | '\\' :: '{' :: '{' :: rest =>
    let (text, after) := plain rest
    ('{' :: '{' :: text, after)
  | '\\' :: rest =>
    let slashes := rest.takeWhile (· = '\\')
    if slashes ≠ [] ∧ "\x7b\x7b".toList.isPrefixOf (rest.dropWhile (· = '\\')) then
      (slashes, rest.dropWhile (· = '\\'))
    else
      let (text, after) := plain rest
      ('\\' :: text, after)
  | c :: rest =>
    let (text, after) := plain rest
    (c :: text, after)

def scanUpTo : Nat → List Char → Option (List Token)
  | _, [] => some []
  | 0, _ => some []
  | fuel + 1, s =>
    match s with
    | '{' :: '{' :: rest => do
      let (tag, after) ← tag? rest
      return .tag tag :: (← scanUpTo fuel after)
    | s => do
      let (text, after) := plain s
      return .text text :: (← scanUpTo fuel after)

end Scan

/-! ## Standalone tags -/

def Tag.ownsLine : Tag → Bool
  | .print _ | .call .. => false
  | _ => true

namespace Scan

def isSpace (c : Char) : Bool := c == ' ' || c == '\t'

def isLineEnd (c : Char) : Bool := c == '\n' || c == '\r'

def trimSpaces (s : List Char) : List Char :=
  (s.reverse.dropWhile isSpace).reverse

/-- Whether a line begins before the spaces at the end of a text; `first` says whether the text is
the first of the template. -/
def endsBlank (first : Bool) (s : List Char) : Bool :=
  match s.reverse.dropWhile isSpace with
  | c :: _ => isLineEnd c
  | [] => first

def startsBlank : List Token → Bool
  | .text s :: _ => (s.dropWhile isSpace).head?.any isLineEnd
  | _ => false

def dropLineEnd (s : List Char) : List Char :=
  match s.dropWhile isSpace with
  | '\r' :: '\n' :: rest => rest
  | '\n' :: rest => rest
  | rest => rest

/-- Removes the lines that hold nothing but a tag of a block or a comment. `first` says whether no
token stands before, `alone` whether the tag before is alone on its line. -/
def removeTagLines (first alone : Bool) : List Token → List Token
  | [] => []
  | .tag t :: rest =>
    let alone' := t.ownsLine && first && startsBlank rest
    .tag t :: removeTagLines false alone' rest
  | .text s :: .tag t :: rest =>
    let alone' := t.ownsLine && endsBlank first s && startsBlank rest
    let front := if alone then dropLineEnd s else s
    .text (if alone' then trimSpaces front else front) :: .tag t :: removeTagLines false alone' rest
  | .text s :: rest =>
    .text (if alone then dropLineEnd s else s) :: removeTagLines false false rest

end Scan

/-- The tokens of a template text, without the lines that only hold tags. -/
def tokens? (s : List Char) : Option (List Token) :=
  (Scan.scanUpTo s.length s).map fun tokens =>
    (Scan.removeTagLines true false tokens).filter (· ≠ .text [])

end ModelTypes.Template
