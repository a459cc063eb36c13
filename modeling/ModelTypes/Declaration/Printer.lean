import ModelTypes.Declaration.Basic
import ModelTypes.Declaration.Literal
import ModelTypes.Style
import ModelTypes.Text.Identifier

/-!
# Printing declaration files

The canonical form of a declaration file under a style. Objects with properties take one line per
property; a union that does not fit on one line takes one line per member. A declaration of several
lines stands between blank lines.
-/

namespace ModelTypes

def Comment.print : Comment → List Char
  | line text => "//".toList ++ text.toList
  | block text => "/*".toList ++ text.toList ++ "*/".toList

def Comment.printLines (comments : List Comment) : List Char :=
  comments.flatMap (·.print ++ ['\n'])

def Modifier.print (m : Modifier) : List Char :=
  (if m.declared then "declare ".toList else []) ++ (if m.exported then "export ".toList else [])

namespace TypeExpr

def isMaybe : TypeExpr → Bool
  | maybe _ => true
  | _ => false

def isUnion : TypeExpr → Bool
  | union _ => true
  | _ => false

def parenthesizeIf (condition : Bool) (text : List Char) : List Char :=
  if condition then ['('] ++ text ++ [')'] else text

/-- A key, bare where it is an identifier. -/
def printKey (style : Style) (key : List Char) : List Char :=
  if Text.isIdentifier key then key else Literal.encode style.preferredQuote key

mutual

/-- A type whose further lines are nested `level` deep. -/
def print (style : Style) (level : Nat) : TypeExpr → List Char
  | named name => name.toList
  | literal value => Literal.encode style.preferredQuote value.toList
  | maybe t => ['?'] ++ parenthesizeIf t.isUnion (t.print style level)
  | array t => parenthesizeIf (t.isUnion || t.isMaybe) (t.print style level) ++ ['[', ']']
  | union ms => " | ".toList.intercalate (printMembers style level ms)
  | object exact [] => opening exact ++ closing exact
  | object exact (p :: ps) =>
    opening exact ++ printProperties style (level + 1) (p :: ps) ++
      ['\n'] ++ style.indentation level ++ closing exact

def printMembers (style : Style) (level : Nat) : List TypeExpr → List (List Char)
  | [] => []
  | t :: ts => parenthesizeIf t.isMaybe (t.print style level) :: printMembers style level ts

def printProperties (style : Style) (level : Nat) : List Property → List Char
  | [] => []
  | ⟨key, optional, value⟩ :: ps =>
    ['\n'] ++ style.indentation level ++ printKey style key.toList ++
      (if optional then ['?'] else []) ++ [':', ' '] ++ value.print style level ++
      (if !ps.isEmpty || style.trailingCommaInObjects then [','] else []) ++
      printProperties style level ps

end

end TypeExpr

namespace Declaration

def head (d : Declaration) : List Char :=
  d.modifier.print ++ "type ".toList ++ d.name.toList ++ " =".toList

/-- Whether a declaration fits on one line, its type being printed as `type`. -/
def fits (style : Style) (d : Declaration) (type : List Char) : Bool :=
  !type.contains '\n' &&
    d.head.length + 1 + type.length + style.terminator.length ≤ style.printWidth

def brokenUnion (style : Style) (members : List TypeExpr) : List Char :=
  (TypeExpr.printMembers style 1 members).flatMap (['\n'] ++ style.indent ++ ['|', ' '] ++ ·)

def printBody (style : Style) (d : Declaration) : List Char :=
  let flat := d.type.print style 0
  match d.type with
  | .union members => if d.fits style flat then ' ' :: flat else brokenUnion style members
  | _ => ' ' :: flat

def print (style : Style) (d : Declaration) : List Char :=
  Comment.printLines d.comments ++ d.head ++ d.printBody style ++ style.terminator

end Declaration

namespace SourceFile

/-- Declarations after one that spans several lines or does not. -/
def printAfter (style : Style) (multiline : Bool) : List Declaration → List Char
  | [] => []
  | d :: ds =>
    let text := d.print style
    (if text.contains '\n' || multiline then ['\n'] else []) ++ text ++ ['\n'] ++
      printAfter style (text.contains '\n') ds

def printMain (style : Style) (file : SourceFile) : List Char :=
  Comment.printLines file.header ++
    match file.declarations with
    | [] => []
    | d :: ds =>
      let text := d.print style
      (if file.header.isEmpty then [] else ['\n']) ++ text ++ ['\n'] ++
        printAfter style (text.contains '\n') ds

def print (style : Style) (file : SourceFile) : List Char :=
  let main := file.printMain style
  if file.trailing.isEmpty then main
  else main ++ (if main.isEmpty then [] else ['\n']) ++ Comment.printLines file.trailing

end SourceFile

end ModelTypes
