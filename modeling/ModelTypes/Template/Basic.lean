import ModelTypes.Document

/-!
# Templates

A template is text with places where data is inserted, chosen by or repeated over. Its data are
texts, numbers, flags, lists and records; a document's data are its fields under their names.
-/

namespace ModelTypes

namespace Template

inductive Data where
  | text (s : String)
  | number (n : Nat)
  | flag (b : Bool)
  | list (items : List Data)
  | record (fields : List (String × Data))

inductive Operand where
  /-- A path from the context `up` levels above: `this` is the empty path from level 0. -/
  | path (up : Nat) (keys : List String)
  /-- What the loop `up` levels above provides beside the item. -/
  | loop (up : Nat) (name : String)
  | text (s : String)
  deriving DecidableEq, Repr

inductive Node where
  | text (s : List Char)
  | print (operand : Operand)
  | quote (operand : Operand)
  | choice (condition : Operand) (whenTrue whenFalse : List Node)
  /-- The body once per item of a list or record; the alternative, if there is one, where there is
  no item. -/
  | each (items : Operand) (body : List Node) (otherwise : Option (List Node))
  /-- A call that cannot succeed: of an unknown helper, or without an argument. -/
  | failure

end Template

abbrev Template := List Template.Node

namespace Template

def bindingData (b : Binding) : Data :=
  .record [("default", .flag b.hasDefault), ("key", .text b.key), ("optional", .flag b.optional),
    ("value", .text b.value.text)]

def aliasData (a : Alias) : Data :=
  .record [("key", .text a.name), ("value", .text a.kind.keyword)]

def documentData : Document → Data
  | .model d => .record [("associations", .list (d.associations.map bindingData)),
      ("fields", .list (d.fields.map bindingData)), ("name", .text d.name),
      ("typePrefix", .text d.typePrefix), ("types", .list (d.aliases.map aliasData))]
  | .enum d => .record [("name", .text d.name), ("typePrefix", .text d.typePrefix),
      ("values", .list (d.values.map .text))]

end Template

end ModelTypes
