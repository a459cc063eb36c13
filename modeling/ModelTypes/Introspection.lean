import ModelTypes.Config
import ModelTypes.Document
import ModelTypes.Naming
import ModelTypes.Schema.Model

/-!
# Introspection

The documents of a schema under a configuration. Each retained model gives the documents of its
enumerated columns and then its own. Every reference to another model is resolved here, and every
declared type name is unique, or there are no documents at all.
-/

namespace ModelTypes

inductive IntrospectionError where
  | unresolvedReference (model field table : String)
  | missingPrimaryKey (model field target : String)
  | missingKeyAttribute (model field target key : String)
  | duplicateTypeName (name document : String)
  | unknownAssociationTarget (model association target : String)
  deriving DecidableEq, Repr

namespace IntrospectionError

def message : IntrospectionError → String
  | unresolvedReference model field table =>
    "model '" ++ model ++ "', field '" ++ field ++ "': foreign key references table '" ++ table ++
      "' which matches no generated model"
  | missingPrimaryKey model field target =>
    "model '" ++ model ++ "', field '" ++ field ++ "': referenced model '" ++ target ++
      "' has no primary key field"
  | missingKeyAttribute model field target key =>
    "model '" ++ model ++ "', field '" ++ field ++ "': primary key '" ++ key ++
      "' of referenced model '" ++ target ++ "' is not a generated attribute"
  | duplicateTypeName name document =>
    "type '" ++ name ++ "' in document '" ++ document ++
      "' is already declared by another model or field"
  | unknownAssociationTarget model association target =>
    "model '" ++ model ++ "', association '" ++ association ++ "': target model '" ++ target ++
      "' does not exist"

end IntrospectionError

/-- What a column becomes: a lifted enumeration, a reference or a scalar. Enumerated columns are
lifted even when they carry a foreign key. -/
inductive AttributeRole where
  | enumeration
  | reference (key : ForeignKey)
  | scalar (kind : FieldKind)
  deriving DecidableEq

def Attribute.role (a : Attribute) : AttributeRole :=
  match a.domain.kind, a.references with
  | .enum, _ => .enumeration
  | _, some key => .reference key
  | kind, none => .scalar kind

namespace Introspection

def retained (config : Config) (models : List Model) : List Model :=
  models.filter (·.name ∉ config.excludedModels)

def columns (config : Config) (m : Model) : List Attribute :=
  m.attributes.filter (·.name ∉ config.excludedFields)

/-- The first retained model with a table. -/
def modelOfTable? (config : Config) (models : List Model) (table : String) : Option Model :=
  (retained config models).find? (·.table = table)

/-- The first model with a name, excluded or not. -/
def modelNamed? (models : List Model) (name : String) : Option Model :=
  models.find? (·.name = name)

/-- The name of a type that belongs to a column, without the prefix. -/
def localName (m : Model) (a : Attribute) : String :=
  capitalizeFirst m.name ++ toPascalCase a.name

/-- The name under which other models refer to a model's type. -/
def referenceName (config : Config) (target : Model) : String :=
  config.typePrefix ++ toPascalCase target.singular

/-- The type that a foreign key stands for: that of the referenced model's primary key, which must
be one of its generated columns. -/
def resolveReference (config : Config) (models : List Model) (m : Model) (a : Attribute)
    (key : ForeignKey) : Except IntrospectionError TypeRef :=
  match modelOfTable? config models key.table with
  | none => .error (.unresolvedReference m.name a.name key.table)
  | some target =>
    match target.primaryKey? with
    | none => .error (.missingPrimaryKey m.name a.name target.name)
    | some primaryKey =>
      if (columns config target).any (·.name = primaryKey) then
        .ok (.named (referenceName config target ++ toPascalCase primaryKey))
      else .error (.missingKeyAttribute m.name a.name target.name primaryKey)

def field (config : Config) (models : List Model) (m : Model) (a : Attribute) :
    Except IntrospectionError Binding :=
  match a.role with
  | .enumeration => .ok { key := a.name, value := .named (config.typePrefix ++ localName m a) }
  | .reference key => do
    return { key := a.name, value := ← resolveReference config models m a key }
  | .scalar kind =>
    let value :=
      if config.typePerField then .named (config.typePrefix ++ localName m a) else .scalar kind
    .ok { key := a.name, value, optional := a.allowNull, hasDefault := a.hasDefault }

def enumeration? (config : Config) (m : Model) (a : Attribute) : Option EnumDocument :=
  match a.role with
  | .enumeration => some ⟨localName m a, config.typePrefix, a.values⟩
  | _ => none

def alias? (config : Config) (m : Model) (a : Attribute) : Option Alias :=
  match a.role with
  | .scalar kind =>
    if config.typePerField then some ⟨config.typePrefix ++ localName m a, kind⟩ else none
  | _ => none

/-- The binding of an association; it is always optional. -/
def association (config : Config) (models : List Model) (m : Model) (a : Association) :
    Except IntrospectionError Binding :=
  match modelNamed? models a.target with
  | none => .error (.unknownAssociationTarget m.name a.name a.target)
  | some target =>
    let name := referenceName config target
    let value := match a.kind.cardinality with
      | .toMany => TypeRef.listOf name
      | .toOne => .named name
    .ok { key := a.name, value, optional := true }

def group (config : Config) (models : List Model) (m : Model) :
    Except IntrospectionError (List Document) := do
  let attributes := columns config m
  let fields ← attributes.mapM (field config models m)
  let associations ← m.associations.mapM (association config models m)
  return (attributes.filterMap (enumeration? config m)).map .enum ++ [.model {
    name := capitalizeFirst m.name
    typePrefix := config.typePrefix
    aliases := attributes.filterMap (alias? config m)
    fields
    associations }]

/-- The names that documents declare, each with the type name of its document. -/
def declarations (documents : List Document) : List (String × String) :=
  documents.flatMap fun d => d.declaredNames.map (·, d.typeName)

/-- The first entry whose name is in `seen` or occurs before it. -/
def firstRepeated? (seen : List String) : List (String × String) → Option (String × String)
  | [] => none
  | (name, document) :: rest =>
    if name ∈ seen then some (name, document) else firstRepeated? (name :: seen) rest

end Introspection

open Introspection in
/-- The documents of a schema, in the order of its models. -/
def introspect (config : Config) (models : List Model) :
    Except IntrospectionError (List Document) := do
  let groups ← (retained config models).mapM (group config models)
  match firstRepeated? [] (declarations groups.flatten) with
  | some (name, document) => .error (.duplicateTypeName name document)
  | none => .ok groups.flatten

end ModelTypes
