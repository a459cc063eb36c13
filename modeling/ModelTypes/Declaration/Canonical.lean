import ModelTypes.Declaration.Parser
import ModelTypes.Declaration.Printer

/-!
# Canonical form

Reading a declaration file and printing what was read.
-/

namespace ModelTypes

def canonicalize (style : Style) (source : String) : Except ParseError String :=
  match SourceFile.parse source.toList with
  | .ok file => .ok (String.ofList (file.print style))
  | .error e => .error e

end ModelTypes
