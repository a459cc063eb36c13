/-!
# Type declaration files

The contents of a file of type declarations: comments, declarations with their modifiers, and type
expressions. Blank space, optional separators, the spelling of literals and parentheses are no part
of it.
-/

namespace ModelTypes

inductive Comment where
  | line (text : String)
  | block (text : String)
  deriving DecidableEq, Repr

structure Modifier where
  declared : Bool
  exported : Bool
  deriving DecidableEq, Repr

mutual

inductive TypeExpr where
  | named (name : String)
  /-- A string literal, by the text it denotes. -/
  | literal (value : String)
  | maybe (inner : TypeExpr)
  | array (element : TypeExpr)
  | union (members : List TypeExpr)
  /-- An object type; an exact one is written `{| |}`. -/
  | object (exact : Bool) (properties : List Property)

structure Property where
  key : String
  optional : Bool
  value : TypeExpr

end

structure Declaration where
  comments : List Comment
  modifier : Modifier
  name : String
  type : TypeExpr

/-- A file of declarations. Comments before the first declaration belong to the header. -/
structure SourceFile where
  header : List Comment
  declarations : List Declaration
  trailing : List Comment

namespace TypeExpr

def opening (exact : Bool) : List Char :=
  if exact then ['{', '|'] else ['{']

def closing (exact : Bool) : List Char :=
  if exact then ['|', '}'] else ['}']

def members : TypeExpr → List TypeExpr
  | union ms => ms
  | t => [t]

/-- The type of one or more members; a member that is a union adds its own members. -/
def ofMembers (first : TypeExpr) : List TypeExpr → TypeExpr
  | [] => first
  | rest => .union ((first :: rest).flatMap members)

end TypeExpr

inductive Item where
  | comment (c : Comment)
  | declaration (modifier : Modifier) (name : String) (type : TypeExpr)

namespace SourceFile

/-- Groups the items from the first declaration on: each declaration takes the comments since the
one before it (`pending`); those after the last trail. -/
def group (pending : List Comment) : List Item → List Declaration × List Comment
  | [] => ([], pending)
  | .comment c :: rest => group (pending ++ [c]) rest
  | .declaration modifier name type :: rest =>
    let (declarations, trailing) := group [] rest
    (⟨pending, modifier, name, type⟩ :: declarations, trailing)

def leadingComments : List Item → List Comment × List Item
  | .comment c :: rest =>
    let (header, rest) := leadingComments rest
    (c :: header, rest)
  | items => ([], items)

def ofItems (items : List Item) : SourceFile :=
  let (header, rest) := leadingComments items
  let (declarations, trailing) := group [] rest
  ⟨header, declarations, trailing⟩

end SourceFile

end ModelTypes
