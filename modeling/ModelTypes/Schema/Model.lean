import ModelTypes.Json.Decode
import ModelTypes.Schema.Domain

/-!
# Relational models

The models of a schema: roughly, its tables with their columns, foreign keys and associations.
-/

namespace ModelTypes

structure ForeignKey where
  table : String
  key : Option String := none
  deriving DecidableEq, Repr

structure Attribute where
  name : String
  domain : ValueDomain
  /-- The name of the column, where it differs. -/
  field : Option String := none
  values : List String := []
  references : Option ForeignKey := none
  allowNull : Bool := false
  defaultValue : Option Json.Value := none
  primaryKey : Bool := false

inductive AssociationKind where
  | hasMany
  | belongsToMany
  | belongsTo
  | hasOne
  deriving DecidableEq, Repr

inductive Cardinality where
  | toMany
  | toOne
  deriving DecidableEq, Repr

def AssociationKind.cardinality : AssociationKind → Cardinality
  | hasMany | belongsToMany => .toMany
  | belongsTo | hasOne => .toOne

structure Association where
  name : String
  target : String
  kind : AssociationKind
  deriving DecidableEq, Repr

structure Model where
  name : String
  declaredTable : Option String := none
  declaredSingular : Option String := none
  declaredKey : Option String := none
  attributes : List Attribute := []
  associations : List Association := []

structure Schema where
  models : List Model := []

/-- Whether a default value counts as one: null, false, zero and the empty string do not. -/
def Json.Value.isTruthy : Json.Value → Bool
  | .null | .bool false => false
  | .number n => !n.isZero
  | .string s => !s.isEmpty
  | _ => true

def Attribute.hasDefault (a : Attribute) : Bool :=
  a.defaultValue.any Json.Value.isTruthy

namespace Model

def table (m : Model) : String :=
  m.declaredTable.getD m.name

def singular (m : Model) : String :=
  m.declaredSingular.getD m.name

/-- The declared primary key, or else the first attribute flagged as one. -/
def primaryKey? (m : Model) : Option String :=
  m.declaredKey <|> (m.attributes.find? (·.primaryKey)).map (·.name)

end Model

end ModelTypes
