import ModelTypes.Schema.Domain

/-!
# Documents

What is generated, before it is rendered: one document per model and one per enumerated column.
-/

namespace ModelTypes

inductive TypeRef where
  | scalar (kind : FieldKind)
  | named (name : String)
  | listOf (name : String)
  deriving DecidableEq, Repr

structure Binding where
  key : String
  value : TypeRef
  optional : Bool := false
  hasDefault : Bool := false
  deriving DecidableEq, Repr

structure Alias where
  name : String
  kind : FieldKind
  deriving DecidableEq, Repr

structure ModelDocument where
  name : String
  typePrefix : String
  aliases : List Alias
  fields : List Binding
  associations : List Binding
  deriving DecidableEq, Repr

structure EnumDocument where
  name : String
  typePrefix : String
  values : List String
  deriving DecidableEq, Repr

inductive Document where
  | model (document : ModelDocument)
  | enum (document : EnumDocument)
  deriving DecidableEq, Repr

/-- The kind of a document chooses its template and its directory. -/
inductive DocumentKind where
  | model
  | enum
  deriving DecidableEq, Repr

namespace DocumentKind

def templateName : DocumentKind → String
  | model => "model"
  | enum => "enum"

def directory : DocumentKind → String
  | model => "models"
  | enum => "enums"

end DocumentKind

def TypeRef.text : TypeRef → String
  | scalar kind => kind.keyword
  | named name => name
  | listOf name => name ++ "[]"

namespace ModelDocument

def field? (d : ModelDocument) (key : String) : Option Binding :=
  d.fields.find? (·.key = key)

def association? (d : ModelDocument) (key : String) : Option Binding :=
  d.associations.find? (·.key = key)

def alias? (d : ModelDocument) (name : String) : Option Alias :=
  d.aliases.find? (·.name = name)

end ModelDocument

namespace Document

def kind : Document → DocumentKind
  | model _ => .model
  | enum _ => .enum

/-- The name without the type prefix. -/
def name : Document → String
  | model d => d.name
  | enum d => d.name

def typePrefix : Document → String
  | model d => d.typePrefix
  | enum d => d.typePrefix

def typeName (d : Document) : String :=
  d.typePrefix ++ d.name

/-- All type names that the document declares, its own first. -/
def declaredNames (d : Document) : List String :=
  d.typeName ::
    match d with
    | model m => m.aliases.map (·.name)
    | enum _ => []

end Document

end ModelTypes
