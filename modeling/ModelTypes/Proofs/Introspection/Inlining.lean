import ModelTypes.Proofs.Introspection.Comparison
import ModelTypes.Proofs.Introspection.Declared

/-!
# Scalars without types of their own

Whether scalar columns get types of their own changes the aliases and the types of the scalar fields
and nothing else. Without these types fewer names are declared, so a run that succeeds with them
succeeds without them.
-/

namespace ModelTypes

/-- The fields of a column in a document with some aliases and in the one without. Only the fields of
scalar columns differ: one names an alias, the other has the kind that the alias stands for. -/
structure FieldInlined (aliases : List Alias) (a : Attribute) (b b' : Binding) : Prop where
  key : b.key = a.name
  key' : b'.key = a.name
  optional : b.optional = b'.optional
  hasDefault : b.hasDefault = b'.hasDefault
  differs : b.value ≠ b'.value ↔ a.domain.kind ≠ .enum ∧ a.references = none
  inlined : b.value ≠ b'.value → ∃ entry ∈ aliases, entry.kind ≠ .enum ∧
    b.value = .named entry.name ∧ b'.value = .scalar entry.kind

open Introspection in
inductive Document.Inlined (config : Config) (models : List Model) : Document → Document → Prop
  | enum : Inlined config models (.enum d) (.enum d)
  | model (hm : m ∈ retained config models)
      (hfields : List.Forall₂ (fun a (b : Binding × Binding) => FieldInlined aliases a b.1 b.2)
        (columns config m) fields) :
      Inlined config models
        (.model ⟨capitalizeFirst m.name, config.typePrefix, aliases, fields.map Prod.fst, associations⟩)
        (.model ⟨capitalizeFirst m.name, config.typePrefix, [], fields.map Prod.snd, associations⟩)

namespace Introspection

variable {config : Config} {models : List Model} {m : Model} {own documents documents' : List Document}

theorem sameExclusions_typePerField :
    SameExclusions { config with typePerField := x } { config with typePerField := y } :=
  ⟨rfl, rfl⟩

/-! ## Documents of one model -/

theorem FieldOf.inline (h : FieldOf { config with typePerField := true } models m a b)
    (ha : a ∈ columns config m) :
    ∃ b', FieldOf { config with typePerField := false } models m a b' ∧
      FieldInlined (scalarAliases { config with typePerField := true } m) a b b' := by
  cases h with
  | enumerated hkind =>
    exact ⟨_, .enumerated hkind, rfl, rfl, rfl, rfl, by simp [hkind], by simp⟩
  | key hkind hkey htable hprimary hcolumn =>
    have htable' := (ownsTable_iff (sameExclusions_typePerField (y := false))).1 htable
    exact ⟨_, .key hkind hkey htable' hprimary hcolumn, rfl, rfl, rfl, rfl, by simp [hkey], by simp⟩
  | scalar hkind hnone hvalue =>
    subst hvalue
    refine ⟨_, .scalar hkind hnone rfl, rfl, rfl, rfl, rfl, by simp [hkind, hnone], ?_⟩
    intro
    refine ⟨⟨_, a.domain.kind⟩, ?_, hkind, rfl, rfl⟩
    exact List.mem_map.2 ⟨a, List.mem_filter.2 ⟨ha, by simp [hkind, hnone]⟩, rfl⟩

theorem fields_inline
    (h : List.Forall₂ (FieldOf { config with typePerField := true } models m) (columns config m) bs) :
    ∃ fields : List (Binding × Binding), bs = fields.map Prod.fst ∧
      List.Forall₂ (FieldOf { config with typePerField := false } models m) (columns config m)
        (fields.map Prod.snd) ∧
      List.Forall₂ (fun a b => FieldInlined (scalarAliases { config with typePerField := true } m) a
        b.1 b.2) (columns config m) fields := by
  -- both bindings of a field are found at once, and then the pairs are taken apart
  have hmem := (List.forall₂_and_left _ _).2 ⟨fun a ha => ha, h⟩
  obtain ⟨fields, hfields, hfst⟩ : ∃ fields : List (Binding × Binding),
      List.Forall₂ (fun a b => FieldOf { config with typePerField := false } models m a b.2 ∧
        FieldInlined (scalarAliases { config with typePerField := true } m) a b.1 b.2)
        (columns config m) fields ∧ List.Forall₂ (fun b c => b = c.1) bs fields := by
    refine forall₂_exists hmem fun a b ⟨ha, hfield⟩ => ?_
    obtain ⟨b', hfield', hinlined⟩ := hfield.inline ha
    exact ⟨(b, b'), ⟨hfield', hinlined⟩, rfl⟩
  rw [← List.forall₂_map_right_iff, List.forall₂_eq_eq_eq] at hfst
  refine ⟨fields, hfst, ?_, hfields.imp fun _ _ h => h.2⟩
  rw [List.forall₂_map_right_iff]
  exact hfields.imp fun _ _ h => h.1

theorem AssociationOf.inline (h : AssociationOf { config with typePerField := true } models a b) :
    AssociationOf { config with typePerField := false } models a b := by
  cases h with
  | toMany hkind htarget => exact .toMany hkind htarget
  | toOne hkind htarget => exact .toOne hkind htarget

theorem group_inline (hm : m ∈ retained config models)
    (h : group { config with typePerField := true } models m = .ok own) :
    ∃ own', group { config with typePerField := false } models m = .ok own' ∧
      List.Forall₂ (Document.Inlined config models) own own' := by
  obtain ⟨hfields, hassociations⟩ := group_ok_iff_documents.1 h
  obtain ⟨fields, rfl, hfields', hinlined⟩ := fields_inline hfields
  have hassociations' := hassociations.imp fun _ _ => AssociationOf.inline
  refine ⟨_, group_ok_iff_documents.2 (.documents hfields' hassociations'), ?_⟩
  refine List.rel_append ?_ (.cons (.model hm hinlined) .nil)
  -- enumerations are lifted all the same
  rw [List.forall₂_map_left_iff, List.forall₂_map_right_iff]
  exact List.forall₂_same.2 fun _ _ => .enum

/-! ## Runs -/

theorem declaredNames_inline (h : List.Forall₂ (Document.Inlined config models) documents documents') :
    (documents'.flatMap Document.declaredNames).Sublist (documents.flatMap Document.declaredNames) := by
  induction h with
  | nil => exact .slnil
  | cons hfirst _ ih =>
    refine List.Sublist.append ?_ ih
    cases hfirst with
    | enum => exact .refl _
    | model => exact .cons_cons _ (List.nil_sublist _)

theorem documents_inline
    (h : introspect { config with typePerField := true } models = .ok documents) :
    ∃ documents', introspect { config with typePerField := false } models = .ok documents' ∧
      List.Forall₂ (Document.Inlined config models) documents documents' :=
  introspect_transfer sameExclusions_typePerField (fun _ hm _ => group_inline hm)
    (fun _ hinlined => (nodup_declaredNames h).sublist (declaredNames_inline hinlined)) h

theorem error_inline
    (h : introspect { config with typePerField := false } models = .error e) :
    ∃ e', introspect { config with typePerField := true } models = .error e' ∧
      (e' = e ∨ (∃ name document, e = .duplicateTypeName name document) ∧
        ∃ name document, e' = .duplicateTypeName name document) := by
  cases htyped : introspect { config with typePerField := true } models with
  | ok documents =>
    obtain ⟨documents', h', -⟩ := documents_inline htyped
    cases h.symm.trans h'
  | error e' => exact ⟨e', rfl, error_eq_or_duplicate sameExclusions_typePerField h htyped⟩

/-- A run in which scalar columns have types of their own corresponds to one in which they have not:
where the first succeeds so does the second, with the kinds in place of the types, and where the
second fails so does the first. -/
theorem introspect_typePerField (config : Config) (models : List Model) :
    (∀ documents, introspect { config with typePerField := true } models = .ok documents →
      ∃ documents', introspect { config with typePerField := false } models = .ok documents' ∧
        List.Forall₂ (Document.Inlined config models) documents documents') ∧
    (∀ e, introspect { config with typePerField := false } models = .error e →
      ∃ e', introspect { config with typePerField := true } models = .error e' ∧
        (e' = e ∨ (∃ name document, e = .duplicateTypeName name document) ∧
          ∃ name document, e' = .duplicateTypeName name document)) :=
  ⟨fun _ => documents_inline, fun _ => error_inline⟩

theorem introspect_typePerField_sample :
    (introspect { ({} : Config) with typePerField := true } [sampleUser, samplePost] =
        .ok [.model sampleUserDocument, .model samplePostDocument] ∧
      ∃ documents, introspect { ({} : Config) with typePerField := false } [sampleUser, samplePost] =
          .ok documents ∧
        List.Forall₂ (Document.Inlined {} [sampleUser, samplePost])
          [.model sampleUserDocument, .model samplePostDocument] documents) ∧
    (introspect { ({} : Config) with typePerField := false } [samplePost] =
        .error (.unresolvedReference "post" "userId" "users") ∧
      ∃ e, introspect { ({} : Config) with typePerField := true } [samplePost] = .error e ∧
        (e = .unresolvedReference "post" "userId" "users" ∨
          (∃ name document, IntrospectionError.unresolvedReference "post" "userId" "users" =
            .duplicateTypeName name document) ∧
          ∃ name document, e = .duplicateTypeName name document)) := by
  have hfails : introspect { ({} : Config) with typePerField := false } [samplePost] =
      .error (.unresolvedReference "post" "userId" "users") := by
    with_unfolding_all rfl
  exact ⟨⟨introspect_sample, (introspect_typePerField {} _).1 _ introspect_sample⟩,
    hfails, (introspect_typePerField {} _).2 _ hfails⟩

end Introspection

end ModelTypes
