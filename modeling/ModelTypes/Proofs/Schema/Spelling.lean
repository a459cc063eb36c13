import ModelTypes.Proofs.Json.Decoding
import ModelTypes.Proofs.Json.Reading
import ModelTypes.Schema.Decode

/-!
# Schemas as text

Which texts spell a schema. Keys stand in any order and keys of no meaning may stand between them;
a key may be left out where what it would say is the default. Every such text is read as the schema.
-/

namespace ModelTypes

open Json (Reading Member Distinct Denotes Decoder Field)

/-! ## Spelling -/

namespace Spelling

def Absent (ms : List Member) (key : String) : Prop :=
  ∀ r, ⟨some key, r⟩ ∉ ms

/-- What stands under a key is as `P` says; the key may be left out if `omissible`. -/
def Under (ms : List Member) (key : String) (P : Reading → Prop) (omissible : Prop) : Prop :=
  (∀ r, ⟨some key, r⟩ ∈ ms → P r) ∧ (Absent ms key → omissible)

def TextIs (s : String) (r : Reading) : Prop :=
  r = .string (some s)

def FlagIs (b : Bool) (r : Reading) : Prop :=
  r = .bool b

/-- Nothing is spelled as null. -/
def OptionalIs (P : α → Reading → Prop) : Option α → Reading → Prop
  | none, r => r = .null
  | some v, r => r ≠ .null ∧ P v r

def ListIs (P : α → Reading → Prop) (vs : List α) (r : Reading) : Prop :=
  ∃ rs, r = .array rs none ∧ List.Forall₂ P vs rs

def ObjectIs (P : List Member → Prop) (r : Reading) : Prop :=
  ∃ ms, r = .object ms none ∧ Distinct ms ∧ P ms

def TagIs (domain : ValueDomain) (r : Reading) : Prop :=
  ∃ tag, TextIs tag r ∧ domain = .ofTag tag

def kindName : AssociationKind → String
  | .hasMany => "HasMany"
  | .belongsToMany => "BelongsToMany"
  | .belongsTo => "BelongsTo"
  | .hasOne => "HasOne"

/-- The table stands under either of two keys. -/
structure ForeignKeyMembers (k : ForeignKey) (ms : List Member) : Prop where
  table : Under ms "table" (TextIs k.table) False ∧ Absent ms "model" ∨
    Under ms "model" (TextIs k.table) False ∧ Absent ms "table"
  key : Under ms "key" (OptionalIs TextIs k.key) (k.key = none)

structure AttributeMembers (a : Attribute) (ms : List Member) : Prop where
  name : Under ms "name" (TextIs a.name) False
  field : Under ms "field" (OptionalIs TextIs a.field) (a.field = none)
  domain : Under ms "type" (TagIs a.domain) False
  values : Under ms "values" (ListIs TextIs a.values) (a.values = [])
  references : Under ms "references"
    (OptionalIs (fun k => ObjectIs (ForeignKeyMembers k)) a.references) (a.references = none)
  allowNull : Under ms "allowNull" (FlagIs a.allowNull) (a.allowNull = false)
  defaultValue : Under ms "defaultValue" (OptionalIs (fun v r => Denotes r v) a.defaultValue)
    (a.defaultValue = none)
  primaryKey : Under ms "primaryKey" (FlagIs a.primaryKey) (a.primaryKey = false)

structure AssociationMembers (a : Association) (ms : List Member) : Prop where
  name : Under ms "as" (TextIs a.name) False
  target : Under ms "target" (TextIs a.target) False
  kind : Under ms "type" (TextIs (kindName a.kind)) False

structure ModelMembers (m : Model) (ms : List Member) : Prop where
  name : Under ms "name" (TextIs m.name) False
  table : Under ms "tableName" (OptionalIs TextIs m.declaredTable) (m.declaredTable = none)
  singular : Under ms "singularName" (OptionalIs TextIs m.declaredSingular)
    (m.declaredSingular = none)
  key : Under ms "primaryKeyField" (OptionalIs TextIs m.declaredKey) (m.declaredKey = none)
  attributes : Under ms "attributes" (ListIs (fun a => ObjectIs (AttributeMembers a)) m.attributes)
    (m.attributes = [])
  associations : Under ms "associations"
    (ListIs (fun a => ObjectIs (AssociationMembers a)) m.associations) (m.associations = [])

structure SchemaMembers (s : Schema) (ms : List Member) : Prop where
  models : Under ms "models" (ListIs (fun m => ObjectIs (ModelMembers m)) s.models) (s.models = [])

end Spelling

/-- A text that spells a schema, with at most 127 arrays and objects around one another. -/
def Schema.Spells (s : Schema) (text : List Char) : Prop :=
  ∃ root, Json.DocumentText text root ∧ root.Within 127 ∧
    Spelling.ObjectIs (Spelling.SchemaMembers s) root

namespace Spelling

variable {ms : List Member} {seen : List String} {r : Reading}

/-! ## Single values -/

theorem text_ok {s : String} (h : TextIs s r) : Json.text r = .ok s := by
  rw [h]
  rfl

theorem flag_ok {b : Bool} (h : FlagIs b r) : Json.bool r = .ok b := by
  rw [h]
  rfl

theorem optional_ok {decode : Decoder α} {P : α → Reading → Prop} {o : Option α}
    (h : OptionalIs P o r) (hdecode : ∀ v, P v r → decode r = .ok v) :
    Json.optional decode r = .ok o := by
  cases o with
  | none =>
    obtain rfl : r = .null := h
    rfl
  | some v =>
    obtain ⟨hne, hv⟩ := h
    unfold Json.optional
    split
    · exact absurd rfl hne
    · rw [hdecode v hv]
      rfl

theorem list_ok {decode : Decoder α} {P : α → Reading → Prop} {vs : List α} {rs : List Reading}
    (h : List.Forall₂ P vs rs) (hdecode : ∀ v, ∀ r ∈ rs, P v r → decode r = .ok v) :
    Json.list decode (.array rs none) = .ok vs := by
  refine Json.list_ok ?_
  induction h with
  | nil => exact .nil
  | cons hv _ ih =>
    refine .cons (hdecode _ _ List.mem_cons_self hv) (ih ?_)
    exact fun v r hr => hdecode v r (List.mem_cons_of_mem _ hr)

theorem kind_ok {kind : AssociationKind} (h : TextIs (kindName kind) r) :
    Json.variant AssociationKind.names r = .ok kind := by
  rw [h]
  cases kind <;> rfl

theorem tag_ok {domain : ValueDomain} (h : TagIs domain r) :
    ∃ tag, Json.text r = .ok tag ∧ ValueDomain.ofTag tag = domain := by
  obtain ⟨tag, htag, rfl⟩ := h
  exact ⟨tag, text_ok htag, rfl⟩

/-! ## Records -/

theorem exists_of_under {P : Reading → Prop} (h : Under ms key P False) :
    ∃ r, ⟨some key, r⟩ ∈ ms := by
  by_contra hnone
  exact h.2 fun r hr => hnone ⟨r, hr⟩

def foreignKeyPart (k : ForeignKey) (seen : List String) : ForeignKey where
  table := if "table" ∈ seen then k.table else ""
  key := if "key" ∈ seen then k.key else none

def attributePart (a : Attribute) (seen : List String) : Attribute where
  name := if "name" ∈ seen then a.name else ""
  domain := if "type" ∈ seen then a.domain else .textual
  field := if "field" ∈ seen then a.field else none
  values := if "values" ∈ seen then a.values else []
  references := if "references" ∈ seen then a.references else none
  allowNull := if "allowNull" ∈ seen then a.allowNull else false
  defaultValue := if "defaultValue" ∈ seen then a.defaultValue else none
  primaryKey := if "primaryKey" ∈ seen then a.primaryKey else false

def associationPart (a : Association) (seen : List String) : Association where
  name := if "as" ∈ seen then a.name else ""
  target := if "target" ∈ seen then a.target else ""
  kind := if "type" ∈ seen then a.kind else .hasMany

def modelPart (m : Model) (seen : List String) : Model where
  name := if "name" ∈ seen then m.name else ""
  declaredTable := if "tableName" ∈ seen then m.declaredTable else none
  declaredSingular := if "singularName" ∈ seen then m.declaredSingular else none
  declaredKey := if "primaryKeyField" ∈ seen then m.declaredKey else none
  attributes := if "attributes" ∈ seen then m.attributes else []
  associations := if "associations" ∈ seen then m.associations else []

theorem set_ok {σ : Type} {decode : Decoder α} {store : α → σ → σ} {s s' : σ} {v : α}
    (h : decode r = .ok v) (hstore : store v s = s') :
    (Field.of key decode store).set r s = .ok s' := by
  simp only [Field.of, h, ← hstore]
  rfl

theorem association_ok {a : Association} (h : AssociationMembers a ms) (hd : Distinct ms)
    (hskip : ∀ m ∈ ms, Json.skip m.value = .ok ()) :
    Association.decode (.object ms none) = .ok a := by
  refine Json.record_plain_ok (by simp [Field.of]) (associationPart a) rfl hd hskip ?_ ?_ ?_
  · simp only [List.forall_mem_cons]
    refine ⟨fun r hr seen => ?_, fun r hr seen => ?_, fun r hr seen => ?_, nofun⟩
    · exact set_ok (text_ok (h.name.1 r hr)) (by simp [associationPart, Field.of])
    · exact set_ok (text_ok (h.target.1 r hr)) (by simp [associationPart, Field.of])
    · exact set_ok (kind_ok (h.kind.1 r hr)) (by simp [associationPart, Field.of])
  · simp only [List.forall_mem_cons]
    exact ⟨fun _ => exists_of_under h.name, fun _ => exists_of_under h.target,
      fun _ => exists_of_under h.kind, nofun⟩
  · intro seen hseen
    simp only [List.forall_mem_cons] at hseen
    obtain ⟨hname, htarget, hkind, -⟩ := hseen
    cases a
    simp only [associationPart, Association.mk.injEq, ite_eq_left_iff]
    exact ⟨fun hn => (h.name.2 (hname hn)).elim, fun hn => (h.target.2 (htarget hn)).elim,
      fun hn => (h.kind.2 (hkind hn)).elim⟩

theorem ForeignKeyMembers.exists_table {k : ForeignKey} (h : ForeignKeyMembers k ms) :
    ∃ given r, (given = "table" ∨ given = "model") ∧ ⟨some given, r⟩ ∈ ms ∧
      ∀ key r, key = "table" ∨ key = "model" → ⟨some key, r⟩ ∈ ms →
        key = given ∧ TextIs k.table r := by
  rcases h.table with ⟨htable, hmodel⟩ | ⟨hmodel, htable⟩
  · obtain ⟨r, hr⟩ := exists_of_under htable
    refine ⟨_, r, .inl rfl, hr, ?_⟩
    rintro key r (rfl | rfl) hr
    · exact ⟨rfl, htable.1 r hr⟩
    · exact absurd hr (hmodel r)
  · obtain ⟨r, hr⟩ := exists_of_under hmodel
    refine ⟨_, r, .inr rfl, hr, ?_⟩
    rintro key r (rfl | rfl) hr
    · exact absurd hr (htable r)
    · exact ⟨rfl, hmodel.1 r hr⟩

theorem foreignKey_ok {k : ForeignKey} (h : ForeignKeyMembers k ms) (hd : Distinct ms)
    (hskip : ∀ m ∈ ms, Json.skip m.value = .ok ()) :
    ForeignKey.decode (.object ms none) = .ok k := by
  obtain ⟨given, r, hgiven, hr, htable⟩ := h.exists_table
  refine (Json.record_ok (foreignKeyPart k) hd.1 ?once hskip ?set ?required).trans ?whole
  case once =>
    refine Json.nodup_given hd.2 ?_
    rintro ⟨key, r⟩ hm ⟨key', r'⟩ hm' f f' hf hf' heq
    obtain ⟨hmem, key, rfl, haccepts⟩ := Json.fieldOf?_eq_some hf
    obtain ⟨hmem', key', rfl, haccepts'⟩ := Json.fieldOf?_eq_some hf'
    simp only [List.mem_cons, List.not_mem_nil, or_false] at hmem hmem'
    -- the table has an alias, and only one of the two keys is there
    rcases hmem with rfl | rfl <;> rcases hmem' with rfl | rfl
    · obtain ⟨rfl, -⟩ := htable key r (by simpa [Field.accepts, Field.of] using haccepts) hm
      obtain ⟨rfl, -⟩ := htable key' r' (by simpa [Field.accepts, Field.of] using haccepts') hm'
      rfl
    · exact absurd heq (by simp [Field.of])
    · exact absurd heq (by simp [Field.of])
    · obtain rfl := (Json.accepts_iff rfl).1 haccepts
      obtain rfl := (Json.accepts_iff rfl).1 haccepts'
      rfl
  case set =>
    rintro ⟨key, r⟩ hm f hf seen
    obtain ⟨hmem, key, rfl, haccepts⟩ := Json.fieldOf?_eq_some hf
    simp only [List.mem_cons, List.not_mem_nil, or_false] at hmem
    rcases hmem with rfl | rfl
    · obtain ⟨-, htext⟩ := htable key r (by simpa [Field.accepts, Field.of] using haccepts) hm
      dsimp only
      exact set_ok (text_ok htext) (by simp [foreignKeyPart, Field.of])
    · obtain rfl := (Json.accepts_iff rfl).1 haccepts
      exact set_ok (optional_ok (h.key.1 r hm) fun _ => text_ok)
        (by simp [foreignKeyPart, Field.of])
  case required =>
    intro f hf hreq
    simp only [List.mem_cons, List.not_mem_nil, or_false] at hf
    rcases hf with rfl | rfl
    · refine Json.mem_given.2 ⟨_, hr, ?_⟩
      rcases hgiven with rfl | rfl <;> exact ⟨_, rfl, rfl⟩
    · cases hreq
  case whole =>
    cases k
    simp only [foreignKeyPart, Except.ok.injEq, ForeignKey.mk.injEq, ite_eq_left_iff,
      List.mem_reverse]
    refine ⟨fun hn => absurd (Json.mem_given.2 ⟨_, hr, ?_⟩) hn, fun hn => (h.key.2 ?_).symm⟩
    · rcases hgiven with rfl | rfl <;> exact ⟨_, rfl, rfl⟩
    · exact fun r hr => hn (Json.mem_given.2 ⟨_, hr, _, rfl, rfl⟩)

theorem attribute_ok {a : Attribute} (h : AttributeMembers a ms) (hd : Distinct ms)
    (hskip : ∀ m ∈ ms, Json.skip m.value = .ok ()) (hdepth : ∀ m ∈ ms, m.value.Within 122) :
    Attribute.decode (.object ms none) = .ok a := by
  -- what lies inside of the attribute can be skipped, since the whole of it can
  have hreferences : ∀ k, ∀ r, ⟨some "references", r⟩ ∈ ms → ObjectIs (ForeignKeyMembers k) r →
      ForeignKey.decode r = .ok k := by
    rintro k _ hr ⟨ms, rfl, hd, hk⟩
    exact foreignKey_ok hk hd (Json.skip_object.1 (hskip _ hr))
  have hvalue : ∀ v, ∀ r, ⟨some "defaultValue", r⟩ ∈ ms → Denotes r v →
      Json.anyValue Attribute.defaultValueDepth r = .ok v :=
    fun v r hr hv => Json.anyValue_ok hv (hdepth _ hr) (by decide)
  refine Json.record_plain_ok (by simp [Field.of]) (attributePart a) rfl hd hskip ?_ ?_ ?_
  · simp only [List.forall_mem_cons]
    refine ⟨fun r hr seen => ?_, fun r hr seen => ?_, fun r hr seen => ?_, fun r hr seen => ?_,
      fun r hr seen => ?_, fun r hr seen => ?_, fun r hr seen => ?_, fun r hr seen => ?_, nofun⟩
    · exact set_ok (text_ok (h.name.1 r hr)) (by simp [attributePart, Field.of])
    · exact set_ok (optional_ok (h.field.1 r hr) fun _ => text_ok)
        (by simp [attributePart, Field.of])
    · obtain ⟨tag, htag, hdomain⟩ := tag_ok (h.domain.1 r hr)
      exact set_ok htag (by simp [attributePart, Field.of, hdomain])
    · obtain ⟨rs, rfl, hrs⟩ := h.values.1 r hr
      exact set_ok (list_ok hrs fun _ _ _ => text_ok) (by simp [attributePart, Field.of])
    · exact set_ok (optional_ok (h.references.1 r hr) fun k => hreferences k r hr)
        (by simp [attributePart, Field.of])
    · exact set_ok (flag_ok (h.allowNull.1 r hr)) (by simp [attributePart, Field.of])
    · exact set_ok (optional_ok (h.defaultValue.1 r hr) fun v => hvalue v r hr)
        (by simp [attributePart, Field.of])
    · exact set_ok (flag_ok (h.primaryKey.1 r hr)) (by simp [attributePart, Field.of])
  · simp only [List.forall_mem_cons]
    exact ⟨fun _ => exists_of_under h.name, nofun, fun _ => exists_of_under h.domain, nofun, nofun,
      nofun, nofun, nofun, nofun⟩
  · intro seen hseen
    simp only [List.forall_mem_cons] at hseen
    obtain ⟨hname, hfield, hdomain, hvalues, hreferences, hnull, hdefault, hkey, -⟩ := hseen
    cases a
    simp only [attributePart, Attribute.mk.injEq, ite_eq_left_iff]
    exact ⟨fun hn => (h.name.2 (hname hn)).elim, fun hn => (h.domain.2 (hdomain hn)).elim,
      fun hn => (h.field.2 (hfield hn)).symm, fun hn => (h.values.2 (hvalues hn)).symm,
      fun hn => (h.references.2 (hreferences hn)).symm, fun hn => (h.allowNull.2 (hnull hn)).symm,
      fun hn => (h.defaultValue.2 (hdefault hn)).symm, fun hn => (h.primaryKey.2 (hkey hn)).symm⟩

theorem model_ok {m : Model} (h : ModelMembers m ms) (hd : Distinct ms)
    (hskip : ∀ m ∈ ms, Json.skip m.value = .ok ()) (hdepth : ∀ m ∈ ms, m.value.Within 124) :
    Model.decode (.object ms none) = .ok m := by
  -- attributes and associations are objects in a list, two levels below the model
  have hattributes : ∀ rs, ⟨some "attributes", .array rs none⟩ ∈ ms → ∀ a, ∀ r ∈ rs,
      ObjectIs (AttributeMembers a) r → Attribute.decode r = .ok a := by
    rintro rs hrs a _ hr ⟨ms, rfl, hd, ha⟩
    have hskipped := Json.skip_array.1 (hskip _ hrs) _ hr
    exact attribute_ok ha hd (Json.skip_object.1 hskipped) (hdepth _ hrs _ hr)
  have hassociations : ∀ rs, ⟨some "associations", .array rs none⟩ ∈ ms → ∀ a, ∀ r ∈ rs,
      ObjectIs (AssociationMembers a) r → Association.decode r = .ok a := by
    rintro rs hrs a _ hr ⟨ms, rfl, hd, ha⟩
    have hskipped := Json.skip_array.1 (hskip _ hrs) _ hr
    exact association_ok ha hd (Json.skip_object.1 hskipped)
  refine Json.record_plain_ok (by simp [Field.of]) (modelPart m) rfl hd hskip ?_ ?_ ?_
  · simp only [List.forall_mem_cons]
    refine ⟨fun r hr seen => ?_, fun r hr seen => ?_, fun r hr seen => ?_, fun r hr seen => ?_,
      fun r hr seen => ?_, fun r hr seen => ?_, nofun⟩
    · exact set_ok (text_ok (h.name.1 r hr)) (by simp [modelPart, Field.of])
    · exact set_ok (optional_ok (h.table.1 r hr) fun _ => text_ok) (by simp [modelPart, Field.of])
    · exact set_ok (optional_ok (h.singular.1 r hr) fun _ => text_ok)
        (by simp [modelPart, Field.of])
    · exact set_ok (optional_ok (h.key.1 r hr) fun _ => text_ok) (by simp [modelPart, Field.of])
    · obtain ⟨rs, rfl, hrs⟩ := h.attributes.1 r hr
      exact set_ok (list_ok hrs (hattributes rs hr)) (by simp [modelPart, Field.of])
    · obtain ⟨rs, rfl, hrs⟩ := h.associations.1 r hr
      exact set_ok (list_ok hrs (hassociations rs hr)) (by simp [modelPart, Field.of])
  · simp only [List.forall_mem_cons]
    exact ⟨fun _ => exists_of_under h.name, nofun, nofun, nofun, nofun, nofun, nofun⟩
  · intro seen hseen
    simp only [List.forall_mem_cons] at hseen
    obtain ⟨hname, htable, hsingular, hkey, hattributes, hassociations, -⟩ := hseen
    cases m
    simp only [modelPart, Model.mk.injEq, ite_eq_left_iff]
    exact ⟨fun hn => (h.name.2 (hname hn)).elim, fun hn => (h.table.2 (htable hn)).symm,
      fun hn => (h.singular.2 (hsingular hn)).symm, fun hn => (h.key.2 (hkey hn)).symm,
      fun hn => (h.attributes.2 (hattributes hn)).symm,
      fun hn => (h.associations.2 (hassociations hn)).symm⟩

theorem schema_ok {s : Schema} (h : SchemaMembers s ms) (hd : Distinct ms)
    (hskip : ∀ m ∈ ms, Json.skip m.value = .ok ()) (hdepth : ∀ m ∈ ms, m.value.Within 126) :
    Schema.decode (.object ms none) = .ok s := by
  have hmodels : ∀ rs, ⟨some "models", .array rs none⟩ ∈ ms → ∀ m, ∀ r ∈ rs,
      ObjectIs (ModelMembers m) r → Model.decode r = .ok m := by
    rintro rs hrs m _ hr ⟨ms, rfl, hd, hm⟩
    have hskipped := Json.skip_array.1 (hskip _ hrs) _ hr
    exact model_ok hm hd (Json.skip_object.1 hskipped) (hdepth _ hrs _ hr)
  refine Json.record_plain_ok (by simp [Field.of])
    (fun seen => ⟨if "models" ∈ seen then s.models else []⟩) rfl hd hskip ?_ ?_ ?_
  · simp only [List.forall_mem_cons]
    refine ⟨fun r hr seen => ?_, nofun⟩
    obtain ⟨rs, rfl, hrs⟩ := h.models.1 r hr
    exact set_ok (list_ok hrs (hmodels rs hr)) (by simp [Field.of])
  · simp only [List.forall_mem_cons]
    exact ⟨nofun, nofun⟩
  · intro seen hseen
    simp only [List.forall_mem_cons] at hseen
    cases s
    simp only [Schema.mk.injEq, ite_eq_left_iff]
    exact fun hn => (h.models.2 (hseen.1 hn)).symm

end Spelling

/-- A text that spells a schema is read as that schema. -/
theorem Schema.ofText_spelled {s : Schema} {text : String} (h : s.Spells text.toList) :
    ofText text = .ok s := by
  obtain ⟨root, htext, hdepth, ms, rfl, hd, hs⟩ := h
  have hread := Json.Reader.document_complete htext
  have hskip := Json.skip_object.1 (Json.skip_document htext)
  rw [ofText, Json.decode, hread]
  simp [Spelling.schema_ok hs hd hskip hdepth, bind, Except.bind]

def sampleSchema : Schema where
  models := [{ name := "a", attributes :=
    [{ name := "é", domain := .enumerated, references := some { table := "b" } }] }]

/-- Keys out of order, one of no meaning, a table as `model`, an escape and a null default. -/
def sampleText : String :=
  "\x7b\"models\":[\x7b\"attributes\":[\x7b\"type\":\"ENUM(2)\",\"x\":[],\"references\":\x7b" ++
    "\"model\":\"b\"\x7d,\"name\":\"\\u00e9\",\"defaultValue\":null\x7d],\"name\":\"a\"\x7d]\x7d"

def sampleAttribute : Reading :=
  .object [⟨some "type", .string (some "ENUM(2)")⟩, ⟨some "x", .array [] none⟩,
    ⟨some "references", .object [⟨some "model", .string (some "b")⟩] none⟩,
    ⟨some "name", .string (some "é")⟩, ⟨some "defaultValue", .null⟩] none

def sampleRoot : Reading :=
  .object [⟨some "models", .array [.object [⟨some "attributes", .array [sampleAttribute] none⟩,
    ⟨some "name", .string (some "a")⟩] none] none⟩] none

theorem sampleRoot_within : sampleRoot.Within 127 := by
  simp [sampleRoot, sampleAttribute, Reading.Within]

section Sample

open Json (ValueText MemberText DocumentText valueText_plain memberText_plain membersText_last
  membersText_more valueText_object valueText_singleton documentText_ofList)

set_option maxRecDepth 1000 in
theorem documentText_sampleText : DocumentText sampleText.toList sampleRoot := by
  have htype : MemberText _ ⟨some "type", .string (some "ENUM(2)")⟩ :=
    memberText_plain rfl (valueText_plain rfl)
  have hx : MemberText _ ⟨some "x", .array [] none⟩ :=
    memberText_plain rfl (.noItems Grammar.gap_nil)
  have htable : MemberText _ ⟨some "model", .string (some "b")⟩ :=
    memberText_plain rfl (valueText_plain rfl)
  have hreferences : MemberText _ ⟨some "references", _⟩ :=
    memberText_plain rfl (valueText_object (membersText_last htable))
  have hbody : Json.StringBody ('\\' :: 'u' :: "00e9".toList ++ []) (Text.units ['é']) :=
    .unit rfl rfl .nil
  have hcolumn : MemberText _ ⟨some "name", .string (some "é")⟩ :=
    memberText_plain rfl (.string (.quoted hbody Text.decodes_units))
  have hdefault : MemberText _ ⟨some "defaultValue", .null⟩ := memberText_plain rfl .null
  have hattribute : ValueText _ sampleAttribute :=
    valueText_object (membersText_more htype (membersText_more hx (membersText_more hreferences
      (membersText_more hcolumn (membersText_last hdefault)))))
  have hattributes : MemberText _ ⟨some "attributes", .array [sampleAttribute] none⟩ :=
    memberText_plain rfl (valueText_singleton hattribute)
  have hname : MemberText _ ⟨some "name", .string (some "a")⟩ :=
    memberText_plain rfl (valueText_plain rfl)
  have hmodel := valueText_object (membersText_more hattributes (membersText_last hname))
  have hmodels : MemberText _ ⟨some "models", _⟩ :=
    memberText_plain rfl (valueText_singleton hmodel)
  exact documentText_ofList (valueText_object (membersText_last hmodels)) rfl

end Sample

namespace Spelling

theorem sampleAttribute_spelled :
    ObjectIs (AttributeMembers
      { name := "é", domain := .enumerated, references := some { table := "b" } })
      sampleAttribute := by
  have htable : ObjectIs (ForeignKeyMembers { table := "b" })
      (.object [⟨some "model", .string (some "b")⟩] none) := by
    refine ⟨_, rfl, ⟨by simp, by simp⟩, .inr ?_, ?_⟩
    · simp [Under, Absent, TextIs]
    · simp [Under]
  have htag : TagIs .enumerated (.string (some "ENUM(2)")) := ⟨"ENUM(2)", rfl, by decide +kernel⟩
  refine ⟨_, rfl, ⟨by simp, by simp⟩, ?_⟩
  constructor
  all_goals simp [Under, Absent, TextIs, OptionalIs, htag, htable]

theorem sampleRoot_spelled : ObjectIs (SchemaMembers sampleSchema) sampleRoot := by
  refine ⟨_, rfl, ⟨by simp, by simp⟩, ⟨?_, by simp [Absent]⟩⟩
  intro r hr
  obtain rfl : r = _ := by simpa using hr
  refine ⟨_, rfl, .cons ⟨_, rfl, ⟨by simp, by simp⟩, ?_⟩ .nil⟩
  constructor
  case attributes =>
    refine ⟨fun r hr => ?_, by simp [Absent]⟩
    obtain rfl : r = _ := by simpa using hr
    exact ⟨_, rfl, .cons sampleAttribute_spelled .nil⟩
  all_goals simp [Under, Absent, TextIs]

end Spelling

theorem ofText_spelled_sample :
    sampleSchema.Spells sampleText.toList ∧ Schema.ofText sampleText = .ok sampleSchema := by
  have h : sampleSchema.Spells sampleText.toList :=
    ⟨_, documentText_sampleText, sampleRoot_within, Spelling.sampleRoot_spelled⟩
  exact ⟨h, Schema.ofText_spelled h⟩

end ModelTypes
