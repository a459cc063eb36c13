import Mathlib.Data.List.Nodup
import ModelTypes.Proofs.Introspection.Comparison
import ModelTypes.Proofs.Introspection.Declared

/-!
# The type prefix

The prefix stands in front of every type name and nowhere else. A run under another prefix gives the
same documents or the same error with the other prefix in its place.
-/

namespace ModelTypes

/-- The first text begins with `q`, and the second is the same with `p` in its place. -/
def ReplacesPrefix (q p s t : String) : Prop :=
  ∃ name, s = q ++ name ∧ t = p ++ name

inductive TypeRef.Renamed (q p : String) : TypeRef → TypeRef → Prop
  | scalar : Renamed q p (.scalar kind) (.scalar kind)
  | named (h : ReplacesPrefix q p name name') : Renamed q p (.named name) (.named name')
  | listOf (h : ReplacesPrefix q p name name') : Renamed q p (.listOf name) (.listOf name')

structure Binding.Renamed (q p : String) (b b' : Binding) : Prop where
  key : b.key = b'.key
  value : TypeRef.Renamed q p b.value b'.value
  optional : b.optional = b'.optional
  hasDefault : b.hasDefault = b'.hasDefault

structure Alias.Renamed (q p : String) (a a' : Alias) : Prop where
  name : ReplacesPrefix q p a.name a'.name
  kind : a.kind = a'.kind

inductive Document.Renamed (q p : String) : Document → Document → Prop
  | enum {name : String} : Renamed q p (.enum ⟨name, q, values⟩) (.enum ⟨name, p, values⟩)
  | model {name : String} (haliases : List.Forall₂ (Alias.Renamed q p) aliases aliases')
      (hfields : List.Forall₂ (Binding.Renamed q p) fields fields')
      (hassociations : List.Forall₂ (Binding.Renamed q p) associations associations') :
      Renamed q p (.model ⟨name, q, aliases, fields, associations⟩)
        (.model ⟨name, p, aliases', fields', associations'⟩)

/-- Only the error about a name that is declared twice shows type names. -/
inductive IntrospectionError.Renamed (q p : String) : IntrospectionError → IntrospectionError → Prop
  | duplicateTypeName (hname : ReplacesPrefix q p name name')
      (hdocument : ReplacesPrefix q p document document') :
      Renamed q p (.duplicateTypeName name document) (.duplicateTypeName name' document')
  | same (h : ∀ name document, e ≠ .duplicateTypeName name document) : Renamed q p e e

theorem replacesPrefix (q p name : String) : ReplacesPrefix q p (q ++ name) (p ++ name) :=
  ⟨name, rfl, rfl⟩

namespace Introspection

variable {config : Config} {models : List Model} {m : Model} {q p : String}
  {documents documents' : List Document}

theorem sameExclusions_typePrefix :
    SameExclusions { config with typePrefix := q } { config with typePrefix := p } :=
  ⟨rfl, rfl⟩

/-! ## Documents of one model -/

theorem FieldOf.rename (h : FieldOf { config with typePrefix := q } models m a b) :
    ∃ b', FieldOf { config with typePrefix := p } models m a b' ∧ Binding.Renamed q p b b' := by
  cases h with
  | enumerated hkind =>
    exact ⟨_, .enumerated hkind, rfl, .named (replacesPrefix q p _), rfl, rfl⟩
  | key hkind hkey htable hprimary hcolumn =>
    exact ⟨_, .key hkind hkey ((ownsTable_iff sameExclusions_typePrefix).1 htable) hprimary hcolumn,
      rfl, .named (replacesPrefix q p _), rfl, rfl⟩
  | scalar hkind hnone hvalue =>
    refine ⟨_, .scalar hkind hnone rfl, rfl, ?_, rfl, rfl⟩
    subst hvalue
    cases hper : config.typePerField with
    | true => exact .named (replacesPrefix q p _)
    | false => exact .scalar

theorem AssociationOf.rename (h : AssociationOf { config with typePrefix := q } models a b) :
    ∃ b', AssociationOf { config with typePrefix := p } models a b' ∧ Binding.Renamed q p b b' := by
  cases h with
  | toMany hkind htarget =>
    exact ⟨_, .toMany hkind htarget, rfl, .listOf (replacesPrefix q p _), rfl, rfl⟩
  | toOne hkind htarget =>
    exact ⟨_, .toOne hkind htarget, rfl, .named (replacesPrefix q p _), rfl, rfl⟩

theorem liftedEnums_rename : List.Forall₂ (Document.Renamed q p)
    ((liftedEnums { config with typePrefix := q } m).map .enum)
    ((liftedEnums { config with typePrefix := p } m).map .enum) := by
  simp only [liftedEnums, List.map_map, List.forall₂_map_left_iff, List.forall₂_map_right_iff]
  exact List.forall₂_same.2 fun _ _ => .enum

theorem scalarAliases_rename : List.Forall₂ (Alias.Renamed q p)
    (scalarAliases { config with typePrefix := q } m)
    (scalarAliases { config with typePrefix := p } m) := by
  unfold scalarAliases
  cases hper : config.typePerField with
  | true =>
    simp only [if_true, List.forall₂_map_left_iff, List.forall₂_map_right_iff]
    exact List.forall₂_same.2 fun _ _ => ⟨replacesPrefix q p _, rfl⟩
  | false => exact .nil

theorem groupOf_rename (hfields : List.Forall₂ (Binding.Renamed q p) fields fields')
    (hassociations : List.Forall₂ (Binding.Renamed q p) associations associations') :
    List.Forall₂ (Document.Renamed q p)
      (groupOf { config with typePrefix := q } m fields associations)
      (groupOf { config with typePrefix := p } m fields' associations') := by
  rw [groupOf_eq, groupOf_eq]
  exact List.rel_append liftedEnums_rename
    (.cons (.model scalarAliases_rename hfields hassociations) .nil)

theorem group_rename (h : group { config with typePrefix := q } models m = .ok own) :
    ∃ own', group { config with typePrefix := p } models m = .ok own' ∧
      List.Forall₂ (Document.Renamed q p) own own' := by
  simp only [group_ok_iff, field_ok_iff, association_ok_iff_of] at h ⊢
  obtain ⟨fields, associations, hfields, hassociations, rfl⟩ := h
  obtain ⟨fields', hfields', hfield⟩ : ∃ fields',
      List.Forall₂ (FieldOf { config with typePrefix := p } models m) (columns config m) fields' ∧
        List.Forall₂ (Binding.Renamed q p) fields fields' :=
    forall₂_exists hfields fun _ _ => FieldOf.rename
  obtain ⟨associations', hassociations', hassociation⟩ : ∃ associations',
      List.Forall₂ (AssociationOf { config with typePrefix := p } models) m.associations
        associations' ∧ List.Forall₂ (Binding.Renamed q p) associations associations' :=
    forall₂_exists hassociations fun _ _ => AssociationOf.rename
  exact ⟨_, ⟨fields', associations', hfields', hassociations', rfl⟩, groupOf_rename hfield hassociation⟩

/-! ## Declared names -/

def prefixed (p : String) (x : String × String) : String × String :=
  (p ++ x.1, p ++ x.2)

theorem map_fst_prefixed {l : List (String × String)} :
    (l.map (prefixed p)).map Prod.fst = (l.map Prod.fst).map (p ++ ·) := by
  simp [prefixed]

theorem prefix_injective : Function.Injective (p ++ ·) :=
  fun _ _ h => String.append_right_inj p |>.1 h

theorem nodup_prefixed {l : List (String × String)} :
    ((l.map (prefixed p)).map Prod.fst).Nodup ↔ (l.map Prod.fst).Nodup := by
  rw [map_fst_prefixed, List.nodup_map_iff prefix_injective]

theorem mem_prefixed {l : List (String × String)} :
    p ++ name ∈ (l.map (prefixed p)).map Prod.fst ↔ name ∈ l.map Prod.fst := by
  rw [map_fst_prefixed, List.mem_map_of_injective prefix_injective]

theorem typeName_rename (h : Document.Renamed q p d d') :
    ReplacesPrefix q p d.typeName d'.typeName := by
  cases h <;> exact replacesPrefix q p _

theorem declaredNames_rename (h : Document.Renamed q p d d') :
    List.Forall₂ (ReplacesPrefix q p) d.declaredNames d'.declaredNames := by
  refine .cons (typeName_rename h) ?_
  cases h with
  | enum => exact .nil
  | model haliases =>
    simp only [List.forall₂_map_left_iff, List.forall₂_map_right_iff]
    exact haliases.imp fun _ _ halias => halias.name

theorem declarations_rename (h : List.Forall₂ (Document.Renamed q p) documents documents') :
    ∃ names : List (String × String), declarations documents = names.map (prefixed q) ∧
      declarations documents' = names.map (prefixed p) := by
  apply exists_map_of_forall₂
  refine List.rel_flatMap h fun d d' hd => ?_
  simp only [List.forall₂_map_left_iff, List.forall₂_map_right_iff]
  refine (declaredNames_rename hd).imp ?_
  rintro _ _ ⟨name, rfl, rfl⟩
  obtain ⟨document, htype, htype'⟩ := typeName_rename hd
  exact ⟨(name, document), by rw [htype]; rfl, by rw [htype']; rfl⟩

theorem nodup_rename (h : List.Forall₂ (Document.Renamed q p) documents documents')
    (hnodup : (documents.flatMap Document.declaredNames).Nodup) :
    (documents'.flatMap Document.declaredNames).Nodup := by
  obtain ⟨names, hq, hp⟩ := declarations_rename h
  rw [← map_fst_declarations, hq, nodup_prefixed] at hnodup
  rw [← map_fst_declarations, hp, nodup_prefixed]
  exact hnodup

/-! ## Runs -/

theorem drafts_rename : List.Forall₂ (Document.Renamed q p)
    (drafts { config with typePrefix := q } models)
    (drafts { config with typePrefix := p } models) := by
  refine List.rel_flatMap (List.forall₂_same.2 fun _ _ => rfl) ?_
  rintro m _ rfl
  exact groupOf_rename .nil .nil

theorem documents_rename
    (h : introspect { config with typePrefix := q } models = .ok documents) :
    ∃ documents', introspect { config with typePrefix := p } models = .ok documents' ∧
      List.Forall₂ (Document.Renamed q p) documents documents' :=
  introspect_transfer sameExclusions_typePrefix (fun _ _ _ => group_rename)
    (fun _ hrenamed => nodup_rename hrenamed (nodup_declaredNames h)) h

theorem error_rename (h : introspect { config with typePrefix := q } models = .error e) :
    ∃ e', introspect { config with typePrefix := p } models = .error e' ∧
      IntrospectionError.Renamed q p e e' := by
  have hsame : SameExclusions { config with typePrefix := q } { config with typePrefix := p } :=
    sameExclusions_typePrefix
  rw [introspect_error_iff] at h
  cases h with
  | violation hfirst =>
    refine ⟨e, error_of_firstViolation hsame hfirst, .same ?_⟩
    obtain ⟨_, _, _, -, -, hviolation⟩ := hfirst
    rintro name document rfl
    cases hviolation
  | repeated hplaces hnames hbefore hname =>
    obtain ⟨names, hq, hp⟩ := declarations_rename (drafts_rename (p := p))
    -- the name stands at the same place among the names without a prefix
    obtain ⟨before, rest, rfl, rfl, hrest⟩ := List.map_eq_append_iff.1 (hq.symm.trans hnames)
    obtain ⟨⟨name, document⟩, after, rfl, hfirst, rfl⟩ := List.map_eq_cons_iff.1 hrest
    cases hfirst
    have hnames' : declarations (drafts { config with typePrefix := p } models) =
        before.map (prefixed p) ++ (p ++ name, p ++ document) :: after.map (prefixed p) := by
      rw [hp, List.map_append]
      rfl
    rw [places_eq hsame, violation_eq hsame] at hplaces
    refine ⟨_, introspect_error_iff.2 (.repeated hplaces hnames' ?_ ?_), ?_⟩
    · exact nodup_prefixed.2 (nodup_prefixed.1 hbefore)
    · exact mem_prefixed.2 (mem_prefixed.1 hname)
    · exact .duplicateTypeName (replacesPrefix q p name) (replacesPrefix q p document)

/-- Two runs whose configurations differ in the prefix alone both succeed, with documents that
differ in the prefix alone, or both fail, with errors that do. -/
theorem introspect_typePrefix (config : Config) (models : List Model) (q p : String) :
    (∀ documents, introspect { config with typePrefix := q } models = .ok documents →
      ∃ documents', introspect { config with typePrefix := p } models = .ok documents' ∧
        List.Forall₂ (Document.Renamed q p) documents documents') ∧
    (∀ e, introspect { config with typePrefix := q } models = .error e →
      ∃ e', introspect { config with typePrefix := p } models = .error e' ∧
        IntrospectionError.Renamed q p e e') :=
  ⟨fun _ => documents_rename, fun _ => error_rename⟩

def blogDocuments (p : String) : List Document :=
  [.enum ⟨"UserStatus", p, ["active"]⟩,
    .model ⟨"User", p, [⟨p ++ "UserId", .number⟩],
      [{ key := "id", value := .named (p ++ "UserId") },
        { key := "status", value := .named (p ++ "UserStatus") }], []⟩,
    .model ⟨"Post", p, [], [{ key := "userId", value := .named (p ++ "UserId") }],
      [{ key := "author", value := .named (p ++ "User"), optional := true }]⟩]

theorem introspect_typePrefix_blog :
    (introspect { ({} : Config) with typePrefix := "$" } sampleBlog = .ok (blogDocuments "$") ∧
      introspect { ({} : Config) with typePrefix := "" } sampleBlog = .ok (blogDocuments "") ∧
      List.Forall₂ (Document.Renamed "$" "") (blogDocuments "$") (blogDocuments "")) ∧
    (introspect { ({} : Config) with typePrefix := "$" } [sampleUser, sampleUser] =
        .error (.duplicateTypeName "$User" "$User") ∧
      ∃ e, introspect { ({} : Config) with typePrefix := "" } [sampleUser, sampleUser] = .error e ∧
        IntrospectionError.Renamed "$" "" (.duplicateTypeName "$User" "$User") e) := by
  have hblog : introspect { ({} : Config) with typePrefix := "$" } sampleBlog =
      .ok (blogDocuments "$") := by
    with_unfolding_all rfl
  have hbare : introspect { ({} : Config) with typePrefix := "" } sampleBlog =
      .ok (blogDocuments "") := by
    with_unfolding_all rfl
  have htwice : introspect { ({} : Config) with typePrefix := "$" } [sampleUser, sampleUser] =
      .error (.duplicateTypeName "$User" "$User") := by
    with_unfolding_all rfl
  obtain ⟨documents, hdocuments, hrenamed⟩ := (introspect_typePrefix {} sampleBlog "$" "").1 _ hblog
  obtain rfl := Except.ok.inj (hdocuments.symm.trans hbare)
  exact ⟨⟨hblog, hbare, hrenamed⟩, htwice, (introspect_typePrefix {} _ "$" "").2 _ htwice⟩

end Introspection

end ModelTypes
