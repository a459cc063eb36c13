/-!
# Formatting style

The options of the canonical form: widths are numbers of characters, an indentation level is a tab
or `tabWidth` spaces.
-/

namespace ModelTypes

inductive TrailingComma where
  | none
  | es5
  | all
  deriving DecidableEq, Repr

structure Style where
  printWidth : Nat := 80
  tabWidth : Nat := 2
  useTabs : Bool := false
  singleQuote : Bool := false
  semi : Bool := true
  trailingComma : TrailingComma := .all
  deriving DecidableEq, Repr

namespace Style

def indent (style : Style) : List Char :=
  if style.useTabs then ['\t'] else List.replicate style.tabWidth ' '

def indentation (style : Style) (level : Nat) : List Char :=
  (List.replicate level style.indent).flatten

def trailingCommaInObjects (style : Style) : Bool :=
  style.trailingComma ≠ .none

def preferredQuote (style : Style) : Char :=
  if style.singleQuote then '\'' else '"'

def terminator (style : Style) : List Char :=
  if style.semi then [';'] else []

end Style

end ModelTypes
