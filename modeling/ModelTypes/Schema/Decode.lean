import ModelTypes.Schema.Model

/-!
# Schemas as JSON

The keys under which a schema's parts are written. Lists may be absent when empty, flags when false,
and optional parts altogether.
-/

namespace ModelTypes

open Json (Decoder Field)

def ForeignKey.decode : Decoder ForeignKey :=
  Json.record [
    { Field.of "table" Json.text fun v k => { k with table := v } with
      aliases := ["model"], required := true },
    .of "key" (Json.optional Json.text) fun v k => { k with key := v }]
    { table := "" }

/-- How many arrays and objects stand around a default value. -/
def Attribute.defaultValueDepth : Nat := 5

def Attribute.decode : Decoder Attribute :=
  Json.record [
    { Field.of "name" Json.text fun v a => { a with name := v } with required := true },
    .of "field" (Json.optional Json.text) fun v a => { a with field := v },
    { Field.of "type" Json.text fun v a => { a with domain := .ofTag v } with required := true },
    .of "values" (Json.list Json.text) fun v a => { a with values := v },
    .of "references" (Json.optional ForeignKey.decode) fun v a => { a with references := v },
    .of "allowNull" Json.bool fun v a => { a with allowNull := v },
    .of "defaultValue" (Json.optional (Json.anyValue defaultValueDepth)) fun v a =>
      { a with defaultValue := v },
    .of "primaryKey" Json.bool fun v a => { a with primaryKey := v }]
    { name := "", domain := .textual }

def AssociationKind.names : List (String × AssociationKind) :=
  [("HasMany", .hasMany), ("BelongsToMany", .belongsToMany), ("BelongsTo", .belongsTo),
   ("HasOne", .hasOne)]

def Association.decode : Decoder Association :=
  Json.record [
    { Field.of "as" Json.text fun v a => { a with name := v } with required := true },
    { Field.of "target" Json.text fun v a => { a with target := v } with required := true },
    { Field.of "type" (Json.variant AssociationKind.names) fun v a => { a with kind := v } with
      required := true }]
    { name := "", target := "", kind := .hasMany }

def Model.decode : Decoder Model :=
  Json.record [
    { Field.of "name" Json.text fun v m => { m with name := v } with required := true },
    .of "tableName" (Json.optional Json.text) fun v m => { m with declaredTable := v },
    .of "singularName" (Json.optional Json.text) fun v m => { m with declaredSingular := v },
    .of "primaryKeyField" (Json.optional Json.text) fun v m => { m with declaredKey := v },
    .of "attributes" (Json.list Attribute.decode) fun v m => { m with attributes := v },
    .of "associations" (Json.list Association.decode) fun v m => { m with associations := v }]
    { name := "" }

def Schema.decode : Decoder Schema :=
  Json.record [.of "models" (Json.list Model.decode) fun v _ => { models := v }] {}

def Schema.ofText (text : String) : Except Json.Category Schema :=
  Json.decode decode text

end ModelTypes
