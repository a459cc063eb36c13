import ModelTypes.Proofs.Introspection.Failures

/-!
# What documents contain

The documents of a run are known from the schema alone: those of each retained model in order, with
one binding for each of its columns and associations. Columns are told apart by their kind and their
foreign key, and no document, alias or binding comes from anywhere else.
-/

namespace ModelTypes.Introspection

/-- The binding of a column. Only that of a scalar says whether the column can be absent. -/
inductive FieldOf (config : Config) (models : List Model) (m : Model) (a : Attribute) :
    Binding → Prop
  | enumerated (hkind : a.domain.kind = .enum) :
      FieldOf config models m a
        { key := a.name
          value := .named (config.typePrefix ++ (capitalizeFirst m.name ++ toPascalCase a.name)) }
  | key (hkind : a.domain.kind ≠ .enum) (hkey : a.references = some key)
      (htable : OwnsTable config models target key.table)
      (hprimary : target.primaryKey? = some primaryKey)
      (hcolumn : Generated config target primaryKey) :
      FieldOf config models m a
        { key := a.name
          value := .named (config.typePrefix ++
            (toPascalCase target.singular ++ toPascalCase primaryKey)) }
  | scalar (hkind : a.domain.kind ≠ .enum) (hnone : a.references = none)
      (hvalue : value = if config.typePerField
        then .named (config.typePrefix ++ (capitalizeFirst m.name ++ toPascalCase a.name))
        else .scalar a.domain.kind) :
      FieldOf config models m a ⟨a.name, value, a.allowNull, a.hasDefault⟩

/-- The binding of an association: a list of the model that it leads to, or the model itself. -/
inductive AssociationOf (config : Config) (models : List Model) (a : Association) : Binding → Prop
  | toMany (hkind : a.kind = .hasMany ∨ a.kind = .belongsToMany)
      (htarget : modelNamed? models a.target = some target) :
      AssociationOf config models a
        ⟨a.name, .listOf (config.typePrefix ++ toPascalCase target.singular), true, false⟩
  | toOne (hkind : a.kind = .belongsTo ∨ a.kind = .hasOne)
      (htarget : modelNamed? models a.target = some target) :
      AssociationOf config models a
        ⟨a.name, .named (config.typePrefix ++ toPascalCase target.singular), true, false⟩

def liftedEnums (config : Config) (m : Model) : List EnumDocument :=
  ((columns config m).filter (·.domain.kind = .enum)).map fun a =>
    ⟨capitalizeFirst m.name ++ toPascalCase a.name, config.typePrefix, a.values⟩

def scalarAliases (config : Config) (m : Model) : List Alias :=
  if config.typePerField then
    ((columns config m).filter fun a => a.domain.kind ≠ .enum ∧ a.references = none).map fun a =>
      ⟨config.typePrefix ++ (capitalizeFirst m.name ++ toPascalCase a.name), a.domain.kind⟩
  else []

inductive DocumentsOf (config : Config) (models : List Model) (m : Model) : List Document → Prop
  | documents (hfields : List.Forall₂ (FieldOf config models m) (columns config m) fields)
      (hassociations : List.Forall₂ (AssociationOf config models) m.associations associations) :
      DocumentsOf config models m ((liftedEnums config m).map .enum ++
        [.model ⟨capitalizeFirst m.name, config.typePrefix, scalarAliases config m, fields,
          associations⟩])

variable {config : Config} {models : List Model} {m : Model} {a : Attribute}

/-! ## Roles -/

theorem role_eq_enumeration_iff : a.role = .enumeration ↔ a.domain.kind = .enum := by
  rw [Attribute.role]
  cases a.domain.kind <;> cases a.references <;> simp

theorem role_eq_scalar_iff : a.role = .scalar kind ↔
    a.domain.kind ≠ .enum ∧ a.references = none ∧ a.domain.kind = kind := by
  rw [Attribute.role]
  cases a.domain.kind <;> cases a.references <;> simp

theorem enumeration?_eq : enumeration? config m a = if a.domain.kind = .enum then
    some ⟨capitalizeFirst m.name ++ toPascalCase a.name, config.typePrefix, a.values⟩ else none := by
  cases hrole : a.role with
  | enumeration => simp [enumeration?, hrole, role_eq_enumeration_iff.1 hrole, localName]
  | reference key => simp [enumeration?, hrole, (role_eq_reference_iff.1 hrole).1]
  | scalar kind => simp [enumeration?, hrole, (role_eq_scalar_iff.1 hrole).1]

theorem alias?_eq : alias? config m a =
    if config.typePerField ∧ a.domain.kind ≠ .enum ∧ a.references = none then
      some ⟨config.typePrefix ++ (capitalizeFirst m.name ++ toPascalCase a.name), a.domain.kind⟩
    else none := by
  cases hrole : a.role with
  | enumeration => simp [alias?, hrole, role_eq_enumeration_iff.1 hrole]
  | reference key => simp [alias?, hrole, (role_eq_reference_iff.1 hrole).2]
  | scalar kind =>
    obtain ⟨hkind, hnone, rfl⟩ := role_eq_scalar_iff.1 hrole
    simp [alias?, hrole, hkind, hnone, localName]

theorem filterMap_enumeration? :
    (columns config m).filterMap (enumeration? config m) = liftedEnums config m := by
  rw [liftedEnums, ← List.filterMap_eq_map, List.filterMap_filter]
  simp [enumeration?_eq]

theorem filterMap_alias? :
    (columns config m).filterMap (alias? config m) = scalarAliases config m := by
  unfold scalarAliases
  cases hper : config.typePerField with
  | true =>
    rw [if_pos rfl, ← List.filterMap_eq_map, List.filterMap_filter]
    simp [alias?_eq, hper]
  | false => simp [alias?_eq, hper]

/-! ## Bindings -/

theorem field_ok_iff : field config models m a = .ok b ↔ FieldOf config models m a b := by
  constructor
  · intro h
    -- the role of the column decides which rule applies
    cases hrole : a.role with
    | enumeration =>
      simp only [field, hrole] at h
      cases h
      exact .enumerated (role_eq_enumeration_iff.1 hrole)
    | reference key =>
      obtain ⟨hkind, hkey⟩ := role_eq_reference_iff.1 hrole
      simp only [field, hrole, except_bind_ok_iff, resolveReference_ok_iff, except_pure_ok_iff] at h
      obtain ⟨_, ⟨target, primaryKey, htarget, hprimary, ⟨c, hc, rfl⟩, rfl⟩, rfl⟩ := h
      obtain ⟨hattribute, hexcluded⟩ := List.mem_filter.1 hc
      rw [keyName, referenceName, String.append_assoc]
      exact .key hkind hkey (modelOfTable?_eq_some_iff.1 htarget) hprimary
        ⟨of_decide_eq_true hexcluded, c, hattribute, rfl⟩
    | scalar kind =>
      obtain ⟨hkind, hnone, rfl⟩ := role_eq_scalar_iff.1 hrole
      simp only [field, hrole] at h
      cases h
      exact .scalar hkind hnone rfl
  · intro h
    cases h with
    | enumerated hkind =>
      simp only [field, role_eq_enumeration_iff.2 hkind]
      rfl
    | key hkind hkey htable hprimary hcolumn =>
      simp only [field, role_eq_reference_iff.2 ⟨hkind, hkey⟩, except_bind_ok_iff,
        resolveReference_ok_iff, except_pure_ok_iff]
      obtain ⟨hexcluded, c, hc, rfl⟩ := hcolumn
      refine ⟨_, ⟨_, _, modelOfTable?_eq_some_iff.2 htable, hprimary, ⟨c, ?_, rfl⟩, rfl⟩, ?_⟩
      · exact List.mem_filter.2 ⟨hc, decide_eq_true hexcluded⟩
      · rw [keyName, referenceName, String.append_assoc]
    | scalar hkind hnone hvalue =>
      simp only [field, role_eq_scalar_iff.2 ⟨hkind, hnone, rfl⟩, hvalue]
      rfl

theorem association_ok_iff_of {a : Association} :
    association config models m a = .ok b ↔ AssociationOf config models a b := by
  rw [association_ok_iff]
  constructor
  · rintro ⟨target, htarget, rfl⟩
    cases hkind : a.kind with
    | hasMany => exact .toMany (.inl hkind) htarget
    | belongsToMany => exact .toMany (.inr hkind) htarget
    | belongsTo => exact .toOne (.inl hkind) htarget
    | hasOne => exact .toOne (.inr hkind) htarget
  · rintro (⟨hkind | hkind, htarget⟩ | ⟨hkind | hkind, htarget⟩) <;>
      exact ⟨_, htarget, by rw [hkind]; rfl⟩

/-! ## Documents -/

theorem groupOf_eq : groupOf config m fields associations = (liftedEnums config m).map .enum ++
    [.model ⟨capitalizeFirst m.name, config.typePrefix, scalarAliases config m, fields,
      associations⟩] := by
  rw [groupOf, filterMap_enumeration?, filterMap_alias?]

theorem group_ok_iff_documents :
    group config models m = .ok own ↔ DocumentsOf config models m own := by
  simp only [group_ok_iff, field_ok_iff, association_ok_iff_of, groupOf_eq]
  constructor
  · rintro ⟨fields, associations, hfields, hassociations, rfl⟩
    exact .documents hfields hassociations
  · rintro ⟨hfields, hassociations⟩
    exact ⟨_, _, hfields, hassociations, rfl⟩

/-- A run succeeds with some documents if and only if they are those of the retained models, in the
order of the schema, and no name is declared twice in them. -/
theorem introspect_documents (config : Config) (models : List Model) (documents : List Document) :
    introspect config models = .ok documents ↔
      ∃ groups, List.Forall₂ (DocumentsOf config models) (retained config models) groups ∧
        documents = groups.flatten ∧ (documents.flatMap Document.declaredNames).Nodup := by
  rw [introspect_ok_iff_nodup]
  -- the documents of a group are known from its model
  simp only [group_ok_iff_documents]

end ModelTypes.Introspection
