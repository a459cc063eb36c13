import ModelTypes.Proofs.Introspection.Contents

/-!
# Two configurations

Of a configuration only the exclusions decide what foreign keys and associations lead to. Under two
configurations that exclude the same, the same place of the schema is wrong first, and if nothing is
wrong, groups that correspond make up documents that correspond.
-/

namespace ModelTypes

theorem forall₂_exists {R : α → β → Prop} {S : α → γ → Prop} {T : β → γ → Prop} {l : List α}
    {r : List β} (h : List.Forall₂ R l r) (hstep : ∀ a b, R a b → ∃ c, S a c ∧ T b c) :
    ∃ r', List.Forall₂ S l r' ∧ List.Forall₂ T r r' := by
  induction h with
  | nil => exact ⟨[], .nil, .nil⟩
  | cons hfirst _ ih =>
    obtain ⟨c, hS, hT⟩ := hstep _ _ hfirst
    obtain ⟨cs, hSs, hTs⟩ := ih
    exact ⟨c :: cs, .cons hS hSs, .cons hT hTs⟩

theorem exists_map_of_forall₂ {f : γ → α} {g : γ → β} {l : List α} {r : List β}
    (h : List.Forall₂ (fun a b => ∃ c, a = f c ∧ b = g c) l r) :
    ∃ cs : List γ, l = cs.map f ∧ r = cs.map g := by
  induction h with
  | nil => exact ⟨[], rfl, rfl⟩
  | cons hfirst _ ih =>
    obtain ⟨c, rfl, rfl⟩ := hfirst
    obtain ⟨cs, rfl, rfl⟩ := ih
    exact ⟨c :: cs, rfl, rfl⟩

namespace Introspection

structure SameExclusions (config config' : Config) : Prop where
  models : config.excludedModels = config'.excludedModels
  fields : config.excludedFields = config'.excludedFields

variable {config config' : Config} {models : List Model} {documents : List Document}

theorem SameExclusions.symm (h : SameExclusions config config') : SameExclusions config' config :=
  ⟨h.models.symm, h.fields.symm⟩

theorem retained_eq (h : SameExclusions config config') :
    retained config models = retained config' models := by
  simp [retained, h.models]

theorem columns_eq (h : SameExclusions config config') : columns config = columns config' := by
  funext m
  simp [columns, h.fields]

theorem ownsTable_iff (h : SameExclusions config config') :
    OwnsTable config models target table ↔ OwnsTable config' models target table := by
  simp [OwnsTable, retained_eq h]

theorem generated_iff (h : SameExclusions config config') :
    Generated config target name ↔ Generated config' target name := by
  simp [Generated, h.fields]

/-! ## What is wrong -/

theorem Violation.transfer (h : SameExclusions config config')
    (hviolation : Violation config models p e) : Violation config' models p e := by
  cases hviolation with
  | unresolved hkind hkey htable =>
    rw [retained_eq h] at htable
    exact .unresolved hkind hkey htable
  | noPrimaryKey hkind hkey htable hnone =>
    exact .noPrimaryKey hkind hkey ((ownsTable_iff h).1 htable) hnone
  | noColumn hkind hkey htable hprimary hcolumn =>
    exact .noColumn hkind hkey ((ownsTable_iff h).1 htable) hprimary ((generated_iff h).not.1 hcolumn)
  | unknownTarget htarget => exact .unknownTarget htarget

theorem violation_eq (h : SameExclusions config config') :
    Violation config models = Violation config' models := by
  funext p e
  exact propext ⟨.transfer h, .transfer h.symm⟩

theorem places_eq (h : SameExclusions config config') :
    places config models = places config' models := by
  simp [places, retained_eq h, columns_eq h]

theorem error_of_firstViolation (h : SameExclusions config config')
    (hfirst : FirstFailure (Violation config models) (places config models) e) :
    introspect config' models = .error e := by
  rw [violation_eq h, places_eq h] at hfirst
  exact introspect_error_iff.2 (.violation hfirst)

/-- Only a name that is declared twice under both configurations may be another one. -/
theorem error_eq_or_duplicate (h : SameExclusions config config')
    (herror : introspect config models = .error e) (herror' : introspect config' models = .error e') :
    e' = e ∨ (∃ name document, e = .duplicateTypeName name document) ∧
      ∃ name document, e' = .duplicateTypeName name document := by
  cases introspect_error_iff.1 herror with
  | violation hfirst =>
    left
    exact Except.error.inj (herror'.symm.trans (error_of_firstViolation h hfirst))
  | repeated =>
    cases introspect_error_iff.1 herror' with
    | violation hfirst =>
      left
      exact Except.error.inj ((error_of_firstViolation h.symm hfirst).symm.trans herror)
    | repeated => exact .inr ⟨⟨_, _, rfl⟩, _, _, rfl⟩

/-! ## Documents -/

theorem introspect_transfer {R : Document → Document → Prop} (h : SameExclusions config config')
    (hgroup : ∀ m ∈ retained config models, ∀ own, group config models m = .ok own →
      ∃ own', group config' models m = .ok own' ∧ List.Forall₂ R own own')
    (hnames : ∀ documents', List.Forall₂ R documents documents' →
      (documents'.flatMap Document.declaredNames).Nodup)
    (hdocuments : introspect config models = .ok documents) :
    ∃ documents', introspect config' models = .ok documents' ∧ List.Forall₂ R documents documents' := by
  obtain ⟨groups, hgroups, rfl, -⟩ := introspect_ok_iff_nodup.1 hdocuments
  have hmem := (List.forall₂_and_left _ _).2 ⟨fun m hm => hm, hgroups⟩
  obtain ⟨groups', hgroups', hrelated⟩ := forall₂_exists hmem fun m own hown =>
    hgroup m hown.1 own hown.2
  have hflatten : List.Forall₂ R groups.flatten groups'.flatten := List.rel_flatten hrelated
  rw [retained_eq h] at hgroups'
  exact ⟨_, introspect_ok_iff_nodup.2 ⟨groups', hgroups', rfl, hnames _ hflatten⟩, hflatten⟩

end Introspection

end ModelTypes
