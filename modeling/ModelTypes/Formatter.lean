import ModelTypes.Declaration.Canonical
import ModelTypes.Filter.Script

/-!
# Formatters

A formatter brings rendered text into its canonical form: by reading and printing it, or by running
a command on it. The commands are the text filters, which stand in for the programs of a system;
generators may have any formatter.
-/

namespace ModelTypes

inductive FormatError where
  | parse (error : ParseError)
  | command (line reason : String)
  deriving DecidableEq, Repr

def FormatError.message : FormatError → String
  | parse error => error.toString
  | command line reason => "formatter command `" ++ line ++ "` failed: " ++ reason

abbrev Formatter := String → Except FormatError String

namespace Formatter

def ofStyle (style : Style) : Formatter := fun source =>
  (canonicalize style source).mapError .parse

/-- A text with one line feed at its end in place of the line ending that it has, if any. -/
def endLine (text : List Char) : List Char :=
  let dropOne (c : Char) : List Char → List Char
    | d :: rest => if d = c then rest else d :: rest
    | [] => []
  (dropOne '\r' (dropOne '\n' text.reverse)).reverse ++ ['\n']

def ofCommand (program : String) (arguments : List String) : Formatter := fun source =>
  match Filter.run? program arguments source with
  | some output => .ok (String.ofList (endLine output.toList))
  | none => .error (.command (" ".intercalate (program :: arguments)) "no successful run")

def ofCommandLine : List String → Except FormatError Formatter
  | [] => .error (.command "" "empty command")
  | program :: arguments => .ok (ofCommand program arguments)

end Formatter

end ModelTypes
