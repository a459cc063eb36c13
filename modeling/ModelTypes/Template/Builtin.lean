import ModelTypes.Template.Basic

/-!
# Built-in templates

The templates of model and enum documents that are used unless a directory overrides them, each as
its text and as the nodes that the text describes. In the texts `\x7b` and `\x7d` are the braces.
-/

namespace ModelTypes.Template

/-! ## Texts -/

private def builtinLines : DocumentKind → List String
  | .model =>
    ["// @flow",
     "",
     "\x7b\x7b#each types\x7d\x7d",
     "declare type \x7b\x7bkey\x7d\x7d = \x7b\x7bvalue\x7d\x7d;",
     "\x7b\x7b/each\x7d\x7d",
     "",
     "declare type \x7b\x7btypePrefix\x7d\x7d\x7b\x7bname\x7d\x7d = \x7b|",
     "\x7b\x7b#each fields\x7d\x7d",
     "  \x7b\x7bliteral key\x7d\x7d\x7b\x7b#if optional\x7d\x7d?\x7b\x7belse\x7d\x7d" ++
       "\x7b\x7b#if default\x7d\x7d?\x7b\x7b/if\x7d\x7d\x7b\x7b/if\x7d\x7d: \x7b\x7bvalue\x7d\x7d,",
     "\x7b\x7b/each\x7d\x7d",
     "\x7b\x7b#each associations\x7d\x7d",
     "  \x7b\x7bliteral key\x7d\x7d\x7b\x7b#if optional\x7d\x7d?\x7b\x7b/if\x7d\x7d: " ++
       "\x7b\x7bvalue\x7d\x7d,",
     "\x7b\x7b/each\x7d\x7d",
     "|\x7d;"]
  | .enum =>
    ["// @flow",
     "",
     "declare type \x7b\x7btypePrefix\x7d\x7d\x7b\x7bname\x7d\x7d =",
     "\x7b\x7b#each values\x7d\x7d",
     "  | \x7b\x7bliteral this\x7d\x7d",
     "\x7b\x7b/each\x7d\x7d",
     "\x7b\x7b#unless values\x7d\x7d",
     "  empty",
     "\x7b\x7b/unless\x7d\x7d",
     ";"]

def builtinSource (kind : DocumentKind) : String :=
  String.ofList ((builtinLines kind).flatMap (·.toList ++ ['\n']))

/-! ## Nodes -/

private def key (name : String) : Operand := .path 0 [name]

private def this : Operand := .path 0 []

private def property (marks : List Node) : List Node :=
  [.text "  ".toList, .quote (key "key")] ++ marks ++
    [.text ": ".toList, .print (key "value"), .text ",\n".toList]

private def questionMark : List Node := [.text ['?']]

/-- The aliases, one to a line, and an exact object with the fields and then the associations. -/
def model : Template :=
  [.text "// @flow\n\n".toList,
   .each (key "types")
    [.text "declare type ".toList, .print (key "key"), .text " = ".toList, .print (key "value"),
     .text ";\n".toList] none,
   .text "\ndeclare type ".toList, .print (key "typePrefix"), .print (key "name"),
   .text " = \x7b|\n".toList,
   .each (key "fields")
    (property [.choice (key "optional") questionMark [.choice (key "default") questionMark []]])
    none,
   .each (key "associations") (property [.choice (key "optional") questionMark []]) none,
   .text "|\x7d;\n".toList]

/-- The union of the values, or the empty type if there are none. -/
def enum : Template :=
  [.text "// @flow\n\ndeclare type ".toList, .print (key "typePrefix"), .print (key "name"),
   .text " =\n".toList,
   .each (key "values") [.text "  | ".toList, .quote this, .text "\n".toList] none,
   .choice (key "values") [] [.text "  empty\n".toList],
   .text ";\n".toList]

def builtin : DocumentKind → Template
  | .model => model
  | .enum => enum

end ModelTypes.Template
