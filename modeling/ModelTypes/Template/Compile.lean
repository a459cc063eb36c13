import ModelTypes.Template.Token

/-!
# Compiling templates

The nodes of a template text. Blocks must be closed in the order in which they are opened, and have
one alternative at most. Of the helpers only `if`, `unless`, `each` and `literal` are covered; a call
of any other one, such as `with`, `lookup` or `len`, fails when it is rendered.
-/

namespace ModelTypes.Template

structure OpenBlock where
  helper : String
  arguments : List Operand
  /-- The nodes before the alternative, once it has begun. -/
  main : Option (List Node)
  before : List Node

def callNode (helper : String) : List Operand → Node
  | operand :: _ => if helper = "literal" then .quote operand else .failure
  | [] => .failure

/-- A name of a helper is a call even without arguments. -/
def helperNames : List String :=
  ["literal", "if", "unless", "each", "with", "lookup", "raw", "log", "eq", "ne", "gt", "gte", "lt",
   "lte", "and", "or", "not", "len"]

def printNode : Operand → Node
  | .path 0 [name] => if name ∈ helperNames then .failure else .print (.path 0 [name])
  | operand => .print operand

def blockNode (helper : String) (arguments : List Operand) (main : List Node)
    (otherwise : Option (List Node)) : Node :=
  match arguments with
  | operand :: _ =>
    if helper = "if" then .choice operand main (otherwise.getD [])
    else if helper = "unless" then .choice operand (otherwise.getD []) main
    else if helper = "each" then .each operand main otherwise
    else .failure
  | [] => .failure

/-- Compiles tokens after the nodes `done`, inside the blocks `blocks`. -/
def compileTokens? (blocks : List OpenBlock) (done : List Node) : List Token → Option (List Node)
  | [] => if blocks.isEmpty then some done else none
  | .text s :: rest => compileTokens? blocks (done ++ [.text s]) rest
  | .tag .comment :: rest => compileTokens? blocks done rest
  | .tag (.print operand) :: rest => compileTokens? blocks (done ++ [printNode operand]) rest
  | .tag (.call helper arguments) :: rest =>
    compileTokens? blocks (done ++ [callNode helper arguments]) rest
  | .tag (.openBlock helper arguments) :: rest =>
    compileTokens? (⟨helper, arguments, none, done⟩ :: blocks) [] rest
  | .tag .alternative :: rest =>
    match blocks with
    | ⟨helper, arguments, none, before⟩ :: outer =>
      compileTokens? (⟨helper, arguments, some done, before⟩ :: outer) [] rest
    | _ => none
  | .tag (.closeBlock helper) :: rest =>
    match blocks with
    | ⟨opened, arguments, main, before⟩ :: outer =>
      if helper ≠ opened then none
      else
        let node := match main with
          | none => blockNode opened arguments done none
          | some nodes => blockNode opened arguments nodes (some done)
        compileTokens? outer (before ++ [node]) rest
    | [] => none

end ModelTypes.Template

namespace ModelTypes

def Template.ofText? (source : String) : Option Template := do
  Template.compileTokens? [] [] (← Template.tokens? source.toList)

end ModelTypes
