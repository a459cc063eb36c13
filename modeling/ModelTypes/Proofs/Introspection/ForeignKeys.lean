import Mathlib.Data.List.Nodup
import ModelTypes.Proofs.Introspection.Contents
import ModelTypes.Proofs.Introspection.Declared

/-!
# Foreign keys

The type of a foreign key is spelled from the model that it leads to, without a look at the document
of that model. The document is in the same run and has a field for the key. Where both spell the
name of the model alike and the key has a type of its own, the two fields have the same type, and it
is declared once.
-/

namespace ModelTypes.Introspection

def Describes (config : Config) (models : List Model) (documents : List Document) (m : Model)
    (d : ModelDocument) : Prop :=
  ∃ own, DocumentsOf config models m own ∧ own ⊆ documents ∧ .model d ∈ own

/-- The key of a model is declared for the model under the name that other models use. -/
structure SpelledAlike (config : Config) (target : Model) (primaryKey : String) : Prop where
  typePerField : config.typePerField
  ownType : ∀ c ∈ target.attributes, c.name = primaryKey → c.domain.kind = .enum ∨ c.references = none
  name : capitalizeFirst target.name = toPascalCase target.singular

/-- What the type of a foreign key stands for in a run: the field of the primary key in the document
of the first retained model with the table. -/
def KeyType (config : Config) (models : List Model) (documents : List Document) (key : ForeignKey)
    (type : TypeRef) : Prop :=
  ∃ target primaryKey d, OwnsTable config models target key.table ∧
    target.primaryKey? = some primaryKey ∧ Describes config models documents target d ∧
    (∃ b ∈ d.fields, b.key = primaryKey) ∧
    (SpelledAlike config target primaryKey → (∀ b ∈ d.fields, b.key = primaryKey → b.value = type) ∧
      ∃ name, type = .named name ∧ (documents.flatMap Document.columnTypes).count name = 1)

variable {config : Config} {models : List Model} {m target : Model} {documents own : List Document}
  {d : ModelDocument}

/-! ## Documents of models -/

theorem exists_describes (h : introspect config models = .ok documents)
    (hm : m ∈ retained config models) : ∃ d, Describes config models documents m d := by
  obtain ⟨own, hgroup, hsubset⟩ := group_of_retained h hm
  obtain ⟨hfields, hassociations⟩ := group_ok_iff_documents.1 hgroup
  exact ⟨_, _, .documents hfields hassociations, hsubset, List.mem_append_right _ List.mem_cons_self⟩

theorem describes_of_mem (h : introspect config models = .ok documents) (hd : .model d ∈ documents) :
    ∃ m ∈ retained config models, Describes config models documents m d := by
  obtain ⟨m, hm, own, hgroup, hown, hsubset⟩ := group_of_document h hd
  exact ⟨m, hm, own, group_ok_iff_documents.1 hgroup, hsubset, hown⟩

theorem Describes.fields (h : Describes config models documents m d) :
    List.Forall₂ (FieldOf config models m) (columns config m) d.fields := by
  obtain ⟨_, ⟨hfields, -⟩, -, hd⟩ := h
  -- the other documents are enumerations
  obtain rfl := by simpa using hd
  exact hfields

theorem FieldOf.key_eq (h : FieldOf config models m a b) : b.key = a.name := by
  cases h <;> rfl

theorem Generated.exists_column (h : Generated config m name) :
    ∃ c ∈ columns config m, c.name = name := by
  obtain ⟨hexcluded, c, hc, rfl⟩ := h
  exact ⟨c, by simp [columns, hc, hexcluded], rfl⟩

theorem Describes.exists_field (h : Describes config models documents m d)
    (hname : Generated config m name) : ∃ b ∈ d.fields, b.key = name := by
  obtain ⟨c, hc, rfl⟩ := hname.exists_column
  obtain ⟨b, hb, hfield⟩ := forall₂_of_mem_left h.fields hc
  exact ⟨b, hb, hfield.key_eq⟩

/-! ## Types of keys -/

theorem FieldOf.value_eq (h : FieldOf config models m a b) (hper : config.typePerField)
    (hown : a.domain.kind = .enum ∨ a.references = none) :
    b.value = .named (config.typePrefix ++ (capitalizeFirst m.name ++ toPascalCase a.name)) := by
  cases h with
  | enumerated => rfl
  | key hkind hkey => simp [hkind, hkey] at hown
  | scalar _ _ hvalue => simp [hvalue, hper]

theorem typed_of (hper : config.typePerField) (hown : a.domain.kind = .enum ∨ a.references = none) :
    Typed config a := by
  rw [Typed]
  cases hrole : a.role with
  | enumeration => trivial
  | reference key =>
    obtain ⟨hkind, hkey⟩ := role_eq_reference_iff.1 hrole
    simp [hkind, hkey] at hown
  | scalar kind => exact hper

theorem columnTypes_sublist :
    (documents.flatMap Document.columnTypes).Sublist (documents.flatMap Document.declaredNames) := by
  induction documents with
  | nil => exact .slnil
  | cons d documents ih =>
    refine List.Sublist.append ?_ ih
    cases d with
    | model d => exact List.sublist_cons_self _ _
    | enum d => exact .refl _

theorem count_columnTypes (h : introspect config models = .ok documents)
    (hm : m ∈ retained config models) (hname : DeclaresColumn config m name) :
    (documents.flatMap Document.columnTypes).count (config.typePrefix ++ name) = 1 := by
  obtain ⟨own, hgroup, hsubset⟩ := group_of_retained h hm
  have hmem := (mem_columnTypes hgroup).2 hname
  have hnodup := (nodup_declaredNames h).sublist columnTypes_sublist
  apply List.count_eq_one_of_mem hnodup
  obtain ⟨d, hd, hdeclared⟩ := List.mem_flatMap.1 hmem
  exact List.mem_flatMap.2 ⟨d, hsubset hd, hdeclared⟩

theorem keyType_of_field (h : introspect config models = .ok documents)
    (hfield : FieldOf config models m a b) (hkind : a.domain.kind ≠ .enum)
    (hkey : a.references = some key) : KeyType config models documents key b.value := by
  cases hfield with
  | enumerated henum => exact absurd henum hkind
  | scalar _ hnone => cases hkey.symm.trans hnone
  | @key _ target primaryKey _ hkey' htable hprimary hcolumn =>
    obtain rfl : key = _ := Option.some.inj (hkey.symm.trans hkey')
    have hretained : target ∈ retained config models :=
      mem_retained_of_table (modelOfTable?_eq_some_iff.2 htable)
    obtain ⟨d, hd⟩ := exists_describes h hretained
    refine ⟨target, primaryKey, d, htable, hprimary, hd, hd.exists_field hcolumn, ?_⟩
    -- spelled alike, the name that is used is the one that the field of the key declares
    rintro ⟨hper, hown, halike⟩
    constructor
    · intro b hb hname
      obtain ⟨c, hc, hfield⟩ := forall₂_of_mem_right hd.fields hb
      obtain rfl : c.name = primaryKey := hfield.key_eq.symm.trans hname
      rw [hfield.value_eq hper (hown c (List.mem_of_mem_filter hc) rfl), halike]
    · obtain ⟨c, hc, rfl⟩ := hcolumn.exists_column
      have htyped := typed_of hper (hown c (List.mem_of_mem_filter hc) rfl)
      refine ⟨_, rfl, count_columnTypes h hretained ⟨c, hc, htyped, ?_⟩⟩
      rw [localName, halike]

/-- The foreign keys of every generated model document lead to fields of the same run. -/
theorem introspect_foreignKeys (h : introspect config models = .ok documents)
    (hd : .model d ∈ documents) :
    ∃ m ∈ retained config models, Describes config models documents m d ∧
      List.Forall₂ (fun a b => b.key = a.name ∧ (a.domain.kind ≠ .enum → ∀ key,
        a.references = some key → KeyType config models documents key b.value))
        (columns config m) d.fields := by
  obtain ⟨m, hm, hdescribes⟩ := describes_of_mem h hd
  refine ⟨m, hm, hdescribes, hdescribes.fields.imp ?_⟩
  intro a b hfield
  exact ⟨hfield.key_eq, fun hkind key hkey => keyType_of_field h hfield hkind hkey⟩

def sampleForum : List Model :=
  [sampleUser, { name := "guest", declaredTable := some "users" },
    { name := "message"
      attributes := [{ name := "id", domain := .numeric, primaryKey := true },
        { name := "userId", domain := .numeric, references := some ⟨"users", none⟩ },
        { name := "replyTo", domain := .numeric, references := some ⟨"message", none⟩ }] }]

def sampleMessageDocument : ModelDocument :=
  ⟨"Message", "$", [⟨"$MessageId", .number⟩],
    [{ key := "id", value := .named "$MessageId" }, { key := "userId", value := .named "$UserId" },
      { key := "replyTo", value := .named "$MessageId" }], []⟩

theorem introspect_foreignKeys_forum : ∃ documents,
    introspect {} sampleForum = .ok documents ∧ .model sampleMessageDocument ∈ documents ∧
      SpelledAlike {} sampleUser "id" ∧
      ∃ m ∈ retained {} sampleForum, Describes {} sampleForum documents m sampleMessageDocument ∧
        List.Forall₂ (fun a b => b.key = a.name ∧ (a.domain.kind ≠ .enum → ∀ key,
          a.references = some key → KeyType {} sampleForum documents key b.value))
          (columns {} m) sampleMessageDocument.fields := by
  have h : introspect {} sampleForum = .ok [.model sampleUserDocument,
      .model ⟨"Guest", "$", [], [], []⟩, .model sampleMessageDocument] := by
    with_unfolding_all rfl
  have hname : capitalizeFirst sampleUser.name = toPascalCase sampleUser.singular := by
    with_unfolding_all rfl
  have hd : Document.model sampleMessageDocument ∈ [.model sampleUserDocument,
      .model ⟨"Guest", "$", [], [], []⟩, .model sampleMessageDocument] := by simp
  exact ⟨_, h, hd, ⟨rfl, by simp [sampleUser], hname⟩, introspect_foreignKeys h hd⟩

end ModelTypes.Introspection
