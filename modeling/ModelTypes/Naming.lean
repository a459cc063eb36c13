import ModelTypes.Text.Upper

/-!
# Names of generated types

Type names join the words of schema names, each with its first character in upper case.
-/

namespace ModelTypes.Naming

def wordSeparator : Char := '_'

def capitalize : List Char → List Char
  | [] => []
  | c :: cs => Text.upper c ++ cs

/-- Upper-cases each character that starts a word and drops the separators; `atStart` says whether
the text begins a word. -/
def joinWords (atStart : Bool) : List Char → List Char
  | [] => []
  | c :: cs =>
    if c = wordSeparator then joinWords true cs
    else (if atStart then Text.upper c else [c]) ++ joinWords false cs

/-- `user_id` and `userId` both become `UserId`. -/
def pascalCase (s : List Char) : List Char :=
  joinWords true s

end ModelTypes.Naming

namespace ModelTypes

def capitalizeFirst (s : String) : String :=
  String.ofList (Naming.capitalize s.toList)

def toPascalCase (s : String) : String :=
  String.ofList (Naming.pascalCase s.toList)

end ModelTypes
