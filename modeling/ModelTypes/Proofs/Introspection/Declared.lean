import ModelTypes.Proofs.Introspection.Contents

/-!
# Names used and names declared

Types are declared under the name of their own model and used under the singular name of the model
that they belong to. The two are spelled alike in most schemas, and then every name in the documents
is declared by one of them. It is stated here exactly when this is so.
-/

namespace ModelTypes

open Introspection

/-! ## Names -/

def TypeRef.name? : TypeRef → Option String
  | scalar _ => none
  | named name | listOf name => some name

/-- The names of the types that a document declares for columns: lifted enumerations and aliases. -/
def Document.columnTypes : Document → List String
  | model d => d.aliases.map (·.name)
  | enum d => [(Document.enum d).typeName]

namespace Introspection

def Typed (config : Config) (a : Attribute) : Prop :=
  match a.role with
  | .enumeration => True
  | .reference _ => False
  | .scalar _ => config.typePerField

/-- The names, without the prefix, of the types that are declared for the columns of a model. -/
def DeclaresColumn (config : Config) (m : Model) (name : String) : Prop :=
  ∃ c ∈ columns config m, Typed config c ∧ localName m c = name

def Declares (config : Config) (m : Model) (name : String) : Prop :=
  capitalizeFirst m.name = name ∨ DeclaresColumn config m name

variable {config : Config} {models : List Model} {m target : Model} {documents own : List Document}

/-! ## Declared names -/

theorem mem_columnType {c : Attribute} : ((∃ e, enumeration? config m c = some e ∧
      (Document.enum e).typeName = config.typePrefix ++ name) ∨
      ∃ a, alias? config m c = some a ∧ a.name = config.typePrefix ++ name) ↔
    Typed config c ∧ localName m c = name := by
  rw [Typed, enumeration?, alias?]
  -- only an enumeration and a scalar can have a type
  cases c.role with
  | enumeration => simp [Document.typeName, Document.typePrefix, Document.name, String.append_right_inj]
  | reference key => simp
  | scalar kind => simp [String.append_right_inj]

theorem mem_columnTypes (h : group config models m = .ok own) :
    config.typePrefix ++ name ∈ own.flatMap Document.columnTypes ↔ DeclaresColumn config m name := by
  obtain ⟨fields, associations, -, -, rfl⟩ := group_ok_iff.1 h
  simp only [DeclaresColumn, ← mem_columnType]
  simp only [groupOf, List.flatMap_append, List.flatMap_map, List.mem_append, List.mem_flatMap,
    List.mem_filterMap, List.flatMap_singleton, Document.columnTypes, List.mem_map,
    List.mem_singleton]
  constructor
  · rintro (⟨e, ⟨c, hc, he⟩, hname⟩ | ⟨a, ⟨c, hc, ha⟩, hname⟩)
    · exact ⟨c, hc, .inl ⟨e, he, hname.symm⟩⟩
    · exact ⟨c, hc, .inr ⟨a, ha, hname⟩⟩
  · rintro ⟨c, hc, ⟨e, he, hname⟩ | ⟨a, ha, hname⟩⟩
    · exact .inl ⟨e, ⟨c, hc, he⟩, hname.symm⟩
    · exact .inr ⟨a, ⟨c, hc, ha⟩, hname⟩

theorem mem_declaredNames (h : group config models m = .ok own) :
    config.typePrefix ++ name ∈ own.flatMap Document.declaredNames ↔ Declares config m name := by
  rw [Declares, ← mem_columnTypes h]
  obtain ⟨fields, associations, -, -, rfl⟩ := group_ok_iff.1 h
  simp only [groupOf, List.flatMap_append, List.flatMap_map, List.mem_append, List.flatMap_singleton,
    Document.columnTypes, Document.declaredNames, List.mem_cons]
  -- the prefix is the same on both sides
  have hname : config.typePrefix ++ name = config.typePrefix ++ capitalizeFirst m.name ↔
      capitalizeFirst m.name = name := by
    rw [String.append_right_inj, eq_comm]
  simp only [Document.typeName, Document.typePrefix, Document.name] at hname ⊢
  rw [hname]
  exact or_left_comm

theorem mem_declaredNames_iff (h : introspect config models = .ok documents) :
    config.typePrefix ++ name ∈ documents.flatMap Document.declaredNames ↔
      ∃ m ∈ retained config models, Declares config m name := by
  constructor
  · intro hname
    obtain ⟨d, hd, hname⟩ := List.mem_flatMap.1 hname
    obtain ⟨m, hm, own, hgroup, hown, -⟩ := group_of_document h hd
    exact ⟨m, hm, (mem_declaredNames hgroup).1 (List.mem_flatMap.2 ⟨d, hown, hname⟩)⟩
  · rintro ⟨m, hm, hname⟩
    obtain ⟨own, hgroup, hsubset⟩ := group_of_retained h hm
    obtain ⟨d, hd, hname⟩ := List.mem_flatMap.1 ((mem_declaredNames hgroup).2 hname)
    exact List.mem_flatMap.2 ⟨d, hsubset hd, hname⟩

theorem mem_declaredNames_of_column (h : name ∈ documents.flatMap Document.columnTypes) :
    name ∈ documents.flatMap Document.declaredNames := by
  obtain ⟨d, hd, hname⟩ := List.mem_flatMap.1 h
  refine List.mem_flatMap.2 ⟨d, hd, ?_⟩
  cases d with
  | model d => exact List.mem_cons_of_mem _ hname
  | enum d => exact hname

/-! ## Used names -/

inductive FieldType (config : Config) (models : List Model) (documents own : List Document)
    (m : Model) (a : Attribute) : TypeRef → Prop
  /-- The type of the column, which a document of the same model declares. -/
  | column (htyped : Typed config a)
      (hdeclared : config.typePrefix ++ localName m a ∈ own.flatMap Document.columnTypes) :
      FieldType config models documents own m a (.named (config.typePrefix ++ localName m a))
  | inline {kind : FieldKind} (hrole : a.role = .scalar kind) (hshared : config.typePerField = false) :
      FieldType config models documents own m a (.scalar kind)
  /-- The type of a key in another model, which is declared there only if it is spelled alike. -/
  | key {key : ForeignKey} {target : Model} {primaryKey : String} {theirs : List Document}
      (hrole : a.role = .reference key)
      (htarget : modelOfTable? config models key.table = some target)
      (hkey : target.primaryKey? = some primaryKey)
      (hgroup : group config models target = .ok theirs) (hsubset : theirs ⊆ documents)
      (hdeclared : keyName config target primaryKey ∈ theirs.flatMap Document.columnTypes ↔
        DeclaresColumn config target (toPascalCase target.singular ++ toPascalCase primaryKey)) :
      FieldType config models documents own m a (.named (keyName config target primaryKey))

/-- The type of an association: the model that it leads to, excluded or not. -/
inductive AssociationType (config : Config) (models : List Model) (a : Association) : TypeRef → Prop
  | toOne {target : Model} (hkind : a.kind.cardinality = .toOne)
      (htarget : modelNamed? models a.target = some target) :
      AssociationType config models a (.named (referenceName config target))
  | toMany {target : Model} (hkind : a.kind.cardinality = .toMany)
      (htarget : modelNamed? models a.target = some target) :
      AssociationType config models a (.listOf (referenceName config target))

theorem keyName_eq : keyName config target primaryKey =
    config.typePrefix ++ (toPascalCase target.singular ++ toPascalCase primaryKey) := by
  rw [keyName, referenceName, String.append_assoc]

theorem field_reference (hrole : a.role = .reference key) (h : field config models m a = .ok b) :
    ∃ target primaryKey, modelOfTable? config models key.table = some target ∧
      target.primaryKey? = some primaryKey ∧
      b = { key := a.name, value := .named (keyName config target primaryKey) } := by
  obtain ⟨hkind, hkey⟩ := role_eq_reference_iff.1 hrole
  cases field_ok_iff.1 h with
  | enumerated henum => exact absurd henum hkind
  | key _ hkey' htable hprimary =>
    cases hkey.symm.trans hkey'
    rw [← keyName_eq]
    exact ⟨_, _, modelOfTable?_eq_some_iff.2 htable, hprimary, rfl⟩
  | scalar _ hnone => cases hnone.symm.trans hkey

/-- What a column is bound to, together with where its type is declared. -/
theorem FieldOf.type (hfield : FieldOf config models m a b)
    (h : introspect config models = .ok documents) (hgroup : group config models m = .ok own)
    (ha : a ∈ columns config m) :
    b.key = a.name ∧ FieldType config models documents own m a b.value := by
  have hcolumn (htyped : Typed config a) :
      config.typePrefix ++ localName m a ∈ own.flatMap Document.columnTypes :=
    (mem_columnTypes hgroup).2 ⟨a, ha, htyped, rfl⟩
  cases hfield with
  | enumerated hkind =>
    have htyped : Typed config a := by
      rw [Typed, role_eq_enumeration_iff.2 hkind]
      exact trivial
    exact ⟨rfl, .column htyped (hcolumn htyped)⟩
  | key hkind hkey htable hprimary =>
    have htarget := modelOfTable?_eq_some_iff.2 htable
    obtain ⟨theirs, htheirs, hsubset⟩ := group_of_retained h (mem_retained_of_table htarget)
    rw [← keyName_eq]
    refine ⟨rfl, .key (role_eq_reference_iff.2 ⟨hkind, hkey⟩) htarget hprimary htheirs hsubset ?_⟩
    rw [keyName_eq]
    exact mem_columnTypes htheirs
  | scalar hkind hnone hvalue =>
    have hrole := role_eq_scalar_iff.2 ⟨hkind, hnone, rfl⟩
    refine ⟨rfl, ?_⟩
    subst hvalue
    cases hper : config.typePerField with
    | true =>
      have htyped : Typed config a := by
        rw [Typed, hrole]
        exact hper
      exact .column htyped (hcolumn htyped)
    | false => exact .inline hrole hper

theorem AssociationOf.type {a : Association} (h : AssociationOf config models a b) :
    b.key = a.name ∧ AssociationType config models a b.value := by
  rcases h with ⟨hkind | hkind, htarget⟩ | ⟨hkind | hkind, htarget⟩
  · exact ⟨rfl, .toMany (by rw [hkind]; rfl) htarget⟩
  · exact ⟨rfl, .toMany (by rw [hkind]; rfl) htarget⟩
  · exact ⟨rfl, .toOne (by rw [hkind]; rfl) htarget⟩
  · exact ⟨rfl, .toOne (by rw [hkind]; rfl) htarget⟩

theorem document_types (h : introspect config models = .ok documents) {d : ModelDocument}
    (hd : .model d ∈ documents) : ∃ m ∈ retained config models, ∃ own,
      group config models m = .ok own ∧ .model d ∈ own ∧ own ⊆ documents ∧
      List.Forall₂ (fun a b => b.key = a.name ∧ FieldType config models documents own m a b.value)
        (columns config m) d.fields ∧
      List.Forall₂ (fun a b => b.key = a.name ∧ AssociationType config models a b.value)
        m.associations d.associations := by
  obtain ⟨m, hm, own, hgroup, hown, hsubset⟩ := group_of_document h hd
  refine ⟨m, hm, own, hgroup, hown, hsubset, ?_⟩
  obtain ⟨hfields, hassociations⟩ := group_ok_iff_documents.1 hgroup
  -- the other documents of the group are enumerations
  obtain rfl := by simpa using hown
  constructor
  · have hpairs := (List.forall₂_and_left _ _).2 ⟨fun a ha => ha, hfields⟩
    exact hpairs.imp fun a b hab => hab.2.type h hgroup hab.1
  · exact hassociations.imp fun a b hab => hab.type

/-! ## Runs without undeclared names -/

/-- All names in the documents are declared, and those of foreign keys by the model that the foreign
key leads to. -/
structure Closed (config : Config) (models : List Model) (documents : List Document) : Prop where
  names : ∀ d, .model d ∈ documents → ∀ b ∈ d.fields ++ d.associations, ∀ name ∈ b.value.name?,
    name ∈ documents.flatMap Document.declaredNames
  keys : ∀ m ∈ retained config models, ∀ a ∈ columns config m, ∀ key target,
    a.role = .reference key → modelOfTable? config models key.table = some target →
    ∃ b theirs, field config models m a = .ok b ∧ group config models target = .ok theirs ∧
      ∃ name ∈ b.value.name?, name ∈ theirs.flatMap Document.columnTypes

structure Resolvable (config : Config) (models : List Model) : Prop where
  keys : ∀ m ∈ retained config models, ∀ a ∈ columns config m, ∀ key target primaryKey,
    a.role = .reference key → modelOfTable? config models key.table = some target →
    target.primaryKey? = some primaryKey →
    DeclaresColumn config target (toPascalCase target.singular ++ toPascalCase primaryKey)
  targets : ∀ m ∈ retained config models, ∀ a ∈ m.associations, ∀ target,
    modelNamed? models a.target = some target →
    ∃ r ∈ retained config models, Declares config r (toPascalCase target.singular)

theorem Closed.resolvable (h : introspect config models = .ok documents)
    (hclosed : Closed config models documents) : Resolvable config models := by
  constructor
  · intro m hm a ha key target primaryKey hrole htarget hkey
    obtain ⟨b, theirs, hb, htheirs, name, hused, hname⟩ := hclosed.keys m hm a ha key target hrole htarget
    obtain ⟨target', primaryKey', htarget', hkey', rfl⟩ := field_reference hrole hb
    -- the lookups have one result each
    obtain rfl : target = target' := Option.some.inj (htarget.symm.trans htarget')
    obtain rfl : primaryKey = primaryKey' := Option.some.inj (hkey.symm.trans hkey')
    obtain rfl : keyName config target primaryKey = name := Option.some.inj hused
    rw [keyName_eq] at hname
    exact (mem_columnTypes htheirs).1 hname
  · intro m hm a ha target htarget
    obtain ⟨own, hgroup, hsubset⟩ := group_of_retained h hm
    obtain ⟨fields, associations, -, hassociations, rfl⟩ := group_ok_iff.1 hgroup
    obtain ⟨b, hb, hab⟩ := forall₂_of_mem_left hassociations ha
    have hused : referenceName config target ∈ b.value.name? := by
      obtain ⟨target', htarget', rfl⟩ := association_ok_iff.1 hab
      obtain rfl : target = target' := Option.some.inj (htarget.symm.trans htarget')
      cases a.kind <;> rfl
    -- the document of the model is the last of its group
    have hmodel := hsubset (List.mem_append_right _ List.mem_cons_self)
    have hname := hclosed.names _ hmodel b (List.mem_append_right _ hb) _ hused
    exact (mem_declaredNames_iff h).1 hname

theorem Resolvable.closed (h : introspect config models = .ok documents)
    (hresolvable : Resolvable config models) : Closed config models documents := by
  constructor
  · intro d hd b hb name hname
    obtain ⟨m, hm, own, -, -, hsubset, hfields, hassociations⟩ := document_types h hd
    rcases List.mem_append.1 hb with hb | hb
    · obtain ⟨a, ha, -, htype⟩ := forall₂_of_mem_right hfields hb
      -- the type alone says which name is used
      generalize b.value = type at hname htype
      cases htype with
      | column _ hdeclared =>
        cases hname
        obtain ⟨e, he, hname⟩ := List.mem_flatMap.1 (mem_declaredNames_of_column hdeclared)
        exact List.mem_flatMap.2 ⟨e, hsubset he, hname⟩
      | inline => cases hname
      | key hrole htarget hkey =>
        cases hname
        have hdeclares := hresolvable.keys m hm a ha _ _ _ hrole htarget hkey
        rw [keyName_eq]
        exact (mem_declaredNames_iff h).2 ⟨_, mem_retained_of_table htarget, .inr hdeclares⟩
    · obtain ⟨a, ha, -, htype⟩ := forall₂_of_mem_right hassociations hb
      generalize b.value = type at hname htype
      cases htype with
      | toOne _ htarget | toMany _ htarget =>
        cases hname
        exact (mem_declaredNames_iff h).2 (hresolvable.targets m hm a ha _ htarget)
  · intro m hm a ha key target hrole htarget
    obtain ⟨own, hgroup, -⟩ := group_of_retained h hm
    obtain ⟨fields, associations, hfields, -, -⟩ := group_ok_iff.1 hgroup
    obtain ⟨b, -, hb⟩ := forall₂_of_mem_left hfields ha
    obtain ⟨target', primaryKey, htarget', hkey, rfl⟩ := field_reference hrole hb
    obtain rfl : target = target' := Option.some.inj (htarget.symm.trans htarget')
    obtain ⟨theirs, htheirs, -⟩ := group_of_retained h (mem_retained_of_table htarget)
    refine ⟨_, theirs, hb, htheirs, _, rfl, ?_⟩
    rw [keyName_eq]
    exact (mem_columnTypes htheirs).2 (hresolvable.keys m hm a ha _ _ _ hrole htarget hkey)

/-- Names are used as they are declared if models are retained and spelled the same way under both
names, and the keys have types of their own. -/
theorem resolvable_of_alike
    (hkeys : ∀ m ∈ retained config models, ∀ a ∈ columns config m, ∀ key target primaryKey,
      a.role = .reference key → modelOfTable? config models key.table = some target →
      target.primaryKey? = some primaryKey →
      capitalizeFirst target.name = toPascalCase target.singular ∧
        ∃ c ∈ columns config target, Typed config c ∧ c.name = primaryKey)
    (htargets : ∀ m ∈ retained config models, ∀ a ∈ m.associations, ∀ target,
      modelNamed? models a.target = some target →
      capitalizeFirst target.name = toPascalCase target.singular ∧ target ∈ retained config models) :
    Resolvable config models := by
  constructor
  · intro m hm a ha key target primaryKey hrole htarget hkey
    obtain ⟨halike, c, hc, htyped, rfl⟩ := hkeys m hm a ha key target primaryKey hrole htarget hkey
    refine ⟨c, hc, htyped, ?_⟩
    rw [localName, halike]
  · intro m hm a ha target htarget
    obtain ⟨halike, hretained⟩ := htargets m hm a ha target htarget
    exact ⟨target, hretained, .inl halike⟩

/-- The names that a successful run declares, the types of its fields and associations, and when all
of them are declared. -/
theorem introspect_names (h : introspect config models = .ok documents) :
    (∀ name, config.typePrefix ++ name ∈ documents.flatMap Document.declaredNames ↔
      ∃ m ∈ retained config models, Declares config m name) ∧
    (∀ d, .model d ∈ documents → ∃ m ∈ retained config models, ∃ own,
      group config models m = .ok own ∧ .model d ∈ own ∧ own ⊆ documents ∧
      List.Forall₂ (fun a b => b.key = a.name ∧ FieldType config models documents own m a b.value)
        (columns config m) d.fields ∧
      List.Forall₂ (fun a b => b.key = a.name ∧ AssociationType config models a b.value)
        m.associations d.associations) ∧
    (Closed config models documents ↔ Resolvable config models) :=
  ⟨fun _ => mem_declaredNames_iff h, fun _ => document_types h, Closed.resolvable h,
    Resolvable.closed h⟩

/-! ## Samples -/

def sampleUser : Model where
  name := "user"
  declaredTable := some "users"
  attributes := [{ name := "id", domain := .numeric, primaryKey := true }]

def samplePost : Model where
  name := "post"
  attributes := [{ name := "userId", domain := .numeric, references := some ⟨"users", none⟩ }]
  associations := [⟨"author", "user", .belongsTo⟩]

def sampleUserDocument : ModelDocument :=
  ⟨"User", "$", [⟨"$UserId", .number⟩], [{ key := "id", value := .named "$UserId" }], []⟩

def samplePostDocument : ModelDocument :=
  ⟨"Post", "$", [], [{ key := "userId", value := .named "$UserId" }],
    [{ key := "author", value := .named "$User", optional := true }]⟩

theorem introspect_sample : introspect {} [sampleUser, samplePost] =
    .ok [.model sampleUserDocument, .model samplePostDocument] := by
  with_unfolding_all rfl

theorem resolvable_sample : Resolvable {} [sampleUser, samplePost] := by
  have hretained : retained {} [sampleUser, samplePost] = [sampleUser, samplePost] := by
    with_unfolding_all rfl
  -- both sides of the name are `User`
  have halike : capitalizeFirst sampleUser.name = toPascalCase sampleUser.singular := by
    with_unfolding_all rfl
  apply resolvable_of_alike
  · intro m hm a ha key target primaryKey hrole htarget hkey
    rw [hretained] at hm
    rcases hm with _ | ⟨_, _ | ⟨_, ⟨⟩⟩⟩
    · obtain rfl : a = ⟨"id", .numeric, none, [], none, false, none, true⟩ :=
        List.mem_singleton.1 (List.mem_of_mem_filter ha)
      cases hrole
    · obtain rfl : a = ⟨"userId", .numeric, none, [], some ⟨"users", none⟩, false, none, false⟩ :=
        List.mem_singleton.1 (List.mem_of_mem_filter ha)
      cases hrole
      cases htarget
      cases hkey
      exact ⟨halike, _, List.mem_singleton_self _, rfl, rfl⟩
  · intro m hm a ha target htarget
    rw [hretained] at hm ⊢
    rcases hm with _ | ⟨_, _ | ⟨_, ⟨⟩⟩⟩
    · cases ha
    · obtain rfl : a = ⟨"author", "user", .belongsTo⟩ := List.mem_singleton.1 ha
      cases htarget
      exact ⟨halike, List.mem_cons_self⟩

theorem introspect_names_sample : introspect {} [sampleUser, samplePost] =
      .ok [.model sampleUserDocument, .model samplePostDocument] ∧
    Closed {} [sampleUser, samplePost] [.model sampleUserDocument, .model samplePostDocument] :=
  ⟨introspect_sample, (introspect_names introspect_sample).2.2.2 resolvable_sample⟩

theorem not_closed {d : ModelDocument} {b : Binding} {name : String} (hd : .model d ∈ documents)
    (hb : b ∈ d.fields ++ d.associations) (hused : name ∈ b.value.name?)
    (hname : name ∉ documents.flatMap Document.declaredNames) :
    ¬ Closed config models documents :=
  fun hclosed => hname (hclosed.names d hd b hb name hused)

def samplePeople : Model where
  name := "people"
  declaredSingular := some "person"
  attributes := [{ name := "person_id", domain := .numeric, primaryKey := true }]

def sampleBadge : Model where
  name := "badge"
  attributes := [{ name := "ownerId", domain := .numeric, references := some ⟨"people", none⟩ }]

def sampleProfile : Model where
  name := "profile"
  declaredKey := some "userId"
  attributes := [{ name := "userId", domain := .numeric, references := some ⟨"users", none⟩ },
    { name := "sourceId", domain := .numeric, references := some ⟨"profile", none⟩ }]

/-- Names are left undeclared by excluded models, singular names, scalars without types of their own
and keys that are foreign keys. -/
theorem introspect_not_closed :
    (∃ documents, introspect { excludedModels := .ofList ["user"] }
        [sampleUser, { samplePost with attributes := [] }] = .ok documents ∧
      ¬ Closed { excludedModels := .ofList ["user"] }
        [sampleUser, { samplePost with attributes := [] }] documents) ∧
    (∃ documents, introspect {} [samplePeople, sampleBadge] = .ok documents ∧
      ¬ Closed {} [samplePeople, sampleBadge] documents) ∧
    (∃ documents, introspect { typePerField := false } [sampleUser, samplePost] = .ok documents ∧
      ¬ Closed { typePerField := false } [sampleUser, samplePost] documents) ∧
    (∃ documents, introspect {} [sampleUser, sampleProfile] = .ok documents ∧
      ¬ Closed {} [sampleUser, sampleProfile] documents) := by
  refine ⟨?_, ?_, ?_, ?_⟩
  · have h : introspect { excludedModels := .ofList ["user"] }
        [sampleUser, { samplePost with attributes := [] }] =
        .ok [.model { samplePostDocument with fields := [] }] := by
      with_unfolding_all rfl
    exact ⟨_, h, not_closed List.mem_cons_self List.mem_cons_self rfl (by decide +kernel)⟩
  · have h : introspect {} [samplePeople, sampleBadge] =
        .ok [.model ⟨"People", "$", [⟨"$PeoplePersonId", .number⟩],
          [{ key := "person_id", value := .named "$PeoplePersonId" }], []⟩,
          .model ⟨"Badge", "$", [], [{ key := "ownerId", value := .named "$PersonPersonId" }], []⟩] := by
      with_unfolding_all rfl
    exact ⟨_, h, not_closed (List.mem_cons_of_mem _ List.mem_cons_self) List.mem_cons_self rfl
      (by decide +kernel)⟩
  · have h : introspect { typePerField := false } [sampleUser, samplePost] =
        .ok [.model ⟨"User", "$", [], [{ key := "id", value := .scalar .number }], []⟩,
          .model samplePostDocument] := by
      with_unfolding_all rfl
    exact ⟨_, h, not_closed (List.mem_cons_of_mem _ List.mem_cons_self) List.mem_cons_self rfl
      (by decide +kernel)⟩
  · have h : introspect {} [sampleUser, sampleProfile] =
        .ok [.model sampleUserDocument, .model ⟨"Profile", "$", [],
          [{ key := "userId", value := .named "$UserId" },
            { key := "sourceId", value := .named "$ProfileUserId" }], []⟩] := by
      with_unfolding_all rfl
    exact ⟨_, h, not_closed (List.mem_cons_of_mem _ List.mem_cons_self)
      (List.mem_cons_of_mem _ List.mem_cons_self) rfl (by decide +kernel)⟩

end Introspection

end ModelTypes
