import ModelTypes.Json.Quoted
import ModelTypes.Template.Basic

/-!
# Rendering templates

Rendering is strict: data that is printed or repeated over must exist. A condition on absent data is
false.
-/

namespace ModelTypes.Template

inductive RenderError where
  | missing
  | notText
  | noItems
  | badIndex
  | failedCall
  deriving DecidableEq, Repr

structure Iteration where
  index : Nat
  last : Bool
  key : Option String

structure Scope where
  data : Data
  iteration : Option Iteration := none

mutual

def Data.print : Data → List Char
  | .text s => s.toList
  | .number n => (toString n).toList
  | .flag b => if b then "true".toList else "false".toList
  | .list items => ['['] ++ ", ".toList.intercalate (printItems items) ++ [']']
  | .record _ => "[object]".toList

def printItems : List Data → List (List Char)
  | [] => []
  | d :: ds => d.print :: printItems ds

end

/-- Flags that are set, numbers other than zero, texts and lists that are not empty. -/
def Data.isTruthy : Data → Bool
  | .text s => !s.isEmpty
  | .number n => n != 0
  | .flag b => b
  | .list items => !items.isEmpty
  | .record fields => !fields.isEmpty

def Data.at? : Data → List String → Except RenderError (Option Data)
  | d, [] => .ok (some d)
  | .record fields, key :: keys =>
    match fields.lookup key with
    | some d => d.at? keys
    | none => .ok none
  | .list items, key :: keys =>
    match key.toNat? with
    | none => .error .badIndex
    | some i =>
      match items[i]? with
      | some d => d.at? keys
      | none => .ok none
  | _, _ :: _ => .ok none
termination_by _ keys => keys.length

def Data.entries? : Data → Option (List (Option String × Data))
  | .list items => some (items.map (none, ·))
  | .record fields => some (fields.map fun (key, d) => (some key, d))
  | _ => none

def Iteration.provided? (i : Iteration) (name : String) : Option Data :=
  if name = "index" then some (.number i.index)
  else if name = "first" then some (.flag (i.index == 0))
  else if name = "last" then some (.flag i.last)
  else if name = "key" then i.key.map .text
  else none

/-- What an operand denotes in the innermost scope and those around it. Too many steps up lead to
the innermost scope. -/
def Operand.eval (scope : Scope) (outer : List Scope) : Operand → Except RenderError (Option Data)
  | .path up keys => (((scope :: outer)[up]?).getD scope).data.at? keys
  | .loop up name => .ok do (← (← (scope :: outer)[up]?).iteration).provided? name
  | .text s => .ok (some (.text s))

mutual

def renderNode (scope : Scope) (outer : List Scope) : Node → Except RenderError (List Char)
  | .text s => .ok s
  | .print operand => do
    match ← operand.eval scope outer with
    | some d => .ok d.print
    | none => .error .missing
  | .quote operand => do
    match ← operand.eval scope outer with
    | some (.text s) => .ok (Json.encode s.toList)
    | _ => .error .notText
  | .choice condition whenTrue whenFalse => do
    if (← condition.eval scope outer).any Data.isTruthy then render scope outer whenTrue
    else render scope outer whenFalse
  | .each operand body otherwise => do
    match (← operand.eval scope outer).bind Data.entries? with
    | some (first :: others) =>
      let last := others.length
      let parts ← (first :: others).zipIdx.mapM fun ((key, item), i) =>
        render ⟨item, some ⟨i, i == last, key⟩⟩ (scope :: outer) body
      .ok parts.flatten
    | noItem =>
      match otherwise with
      | some nodes => render scope outer nodes
      | none => if noItem.isSome then .ok [] else .error .noItems
  | .failure => .error .failedCall

def render (scope : Scope) (outer : List Scope) : List Node → Except RenderError (List Char)
  | [] => .ok []
  | node :: nodes => do
    let front ← renderNode scope outer node
    return front ++ (← render scope outer nodes)

end

end ModelTypes.Template

namespace ModelTypes

def Template.renderDocument (t : Template) (d : Document) :
    Except Template.RenderError (List Char) :=
  Template.render ⟨Template.documentData d, none⟩ [] t

end ModelTypes
