import ModelTypes.Text.Blank

/-!
# Syntax errors

A text is rejected for a cause, at the rest of the text that could not be read. What is reported is
the line and column of that place and its first word.
-/

namespace ModelTypes

/-- What a committed reader needs next. -/
inductive Expectation where
  | typeName
  | equalsSign
  | type
  | closingParen
  | closingBrace (exact : Bool)
  | closedLiteral
  deriving DecidableEq, Repr

inductive SyntaxCause where
  | expected (what : Expectation)
  | noKeyword
  | keywordRunsOn
  deriving DecidableEq, Repr

/-- A cause and the rest of the text where it arose. -/
structure SyntaxError where
  cause : SyntaxCause
  rest : List Char
  deriving DecidableEq, Repr

/-- A syntax error as reported: lines and columns count from one. -/
structure ParseError where
  line : Nat
  column : Nat
  cause : SyntaxCause
  /-- The first word at the error, cut to `foundWidth`; none at the end of the text. -/
  found : Option (List Char)
  deriving DecidableEq, Repr

namespace Expectation

def text : Expectation → String
  | typeName => "type name"
  | equalsSign => "'='"
  | type => "type"
  | closingParen => "')'"
  | closingBrace true => "'|\x7d'"
  | closingBrace false => "'\x7d'"
  | closedLiteral => "closed string literal"

end Expectation

def SyntaxCause.message : SyntaxCause → String
  | expected what => "expected " ++ what.text
  | noKeyword => "unexpected input (Tag)"
  | keywordRunsOn => "unexpected input (Negation)"

def lineAfter (consumed : List Char) : Nat :=
  consumed.count '\n' + 1

def columnAfter (consumed : List Char) : Nat :=
  (consumed.reverse.takeWhile (· ≠ '\n')).length + 1

def foundWidth : Nat := 20

/-- The report of an error whose rest is a suffix of `source`. -/
def SyntaxError.locate (source : List Char) (e : SyntaxError) : ParseError :=
  let consumed := source.take (source.length - e.rest.length)
  { line := lineAfter consumed
    column := columnAfter consumed
    cause := e.cause
    found := (Text.firstWord? e.rest).map (·.take foundWidth) }

namespace ParseError

def message (e : ParseError) : String :=
  let found := match e.found with
    | some word => "found `" ++ String.ofList word ++ "`"
    | none => "found end of input"
  e.cause.message ++ ", " ++ found

def toString (e : ParseError) : String :=
  s!"parse error at line {e.line}, column {e.column}: {e.message}"

end ParseError

end ModelTypes
