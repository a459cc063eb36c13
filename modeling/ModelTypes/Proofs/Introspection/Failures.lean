import ModelTypes.Proofs.Introspection.Groups

/-!
# When introspection fails

Foreign keys and associations are resolved in the order of the schema, and after all of them the
declared names are compared. The first thing that is wrong is the error of the run.
-/

namespace ModelTypes

theorem except_bind_error_iff {x : Except ε α} {f : α → Except ε β} :
    x >>= f = .error e ↔ x = .error e ∨ ∃ a, x = .ok a ∧ f a = .error e := by
  cases x <;> simp [bind, Except.bind]

theorem except_ok_iff {x : Except ε α} : (∃ a, x = .ok a) ↔ ∀ e, x ≠ .error e := by
  cases x <;> simp

/-! ## First failures -/

/-- A list has an element that fails with `e`, and no element before it fails. -/
def FirstFailure (Fails : α → ε → Prop) (l : List α) (e : ε) : Prop :=
  ∃ before a after, l = before ++ a :: after ∧ (∀ b ∈ before, ∀ e', ¬ Fails b e') ∧ Fails a e

section

variable {Fails : α → ε → Prop}

theorem not_firstFailure_nil : ¬ FirstFailure Fails [] e := by
  rintro ⟨before, a, after, h, -⟩
  cases before <;> cases h

theorem firstFailure_cons : FirstFailure Fails (a :: l) e ↔
    Fails a e ∨ (∀ e', ¬ Fails a e') ∧ FirstFailure Fails l e := by
  constructor
  · rintro ⟨before, b, after, hl, hbefore, hb⟩
    cases before with
    | nil =>
      cases hl
      exact .inl hb
    | cons c before =>
      cases hl
      obtain ⟨ha, hbefore⟩ := List.forall_mem_cons.1 hbefore
      exact .inr ⟨ha, before, b, after, rfl, hbefore, hb⟩
  · rintro (ha | ⟨ha, before, b, after, rfl, hbefore, hb⟩)
    · exact ⟨[], a, l, rfl, List.forall_mem_nil _, ha⟩
    · exact ⟨a :: before, b, after, rfl, List.forall_mem_cons.2 ⟨ha, hbefore⟩, hb⟩

theorem forall_not_firstFailure :
    (∀ e, ¬ FirstFailure Fails l e) ↔ ∀ a ∈ l, ∀ e, ¬ Fails a e := by
  induction l with
  | nil => simp [not_firstFailure_nil]
  | cons a l ih =>
    simp only [firstFailure_cons, List.forall_mem_cons, ← ih, not_or, not_and, forall_and]
    constructor
    · rintro ⟨ha, hl⟩
      exact ⟨ha, fun e => hl e ha⟩
    · rintro ⟨ha, hl⟩
      exact ⟨ha, fun e _ => hl e⟩

theorem firstFailure_append : FirstFailure Fails (l ++ l') e ↔
    FirstFailure Fails l e ∨ (∀ a ∈ l, ∀ e', ¬ Fails a e') ∧ FirstFailure Fails l' e := by
  induction l with
  | nil => simp [not_firstFailure_nil]
  | cons a l ih =>
    rw [List.cons_append, firstFailure_cons, firstFailure_cons, ih, List.forall_mem_cons]
    tauto

theorem firstFailure_flatMap {f : β → List α} : FirstFailure Fails (l.flatMap f) e ↔
    FirstFailure (fun b e => FirstFailure Fails (f b) e) l e := by
  induction l with
  | nil => simp [not_firstFailure_nil]
  | cons b l ih =>
    rw [List.flatMap_cons, firstFailure_append, ih, firstFailure_cons, forall_not_firstFailure]

theorem firstFailure_map {f : β → α} : FirstFailure Fails (l.map f) e ↔
    FirstFailure (fun b e => Fails (f b) e) l e := by
  induction l with
  | nil => simp [not_firstFailure_nil]
  | cons b l ih => rw [List.map_cons, firstFailure_cons, ih, firstFailure_cons]

end

theorem mapM_error_iff {f : α → Except ε β} {l : List α} :
    l.mapM f = .error e ↔ FirstFailure (fun a e => f a = .error e) l e := by
  induction l with
  | nil => simp [not_firstFailure_nil, pure, Except.pure]
  | cons a l ih =>
    rw [List.mapM_cons, except_bind_error_iff, firstFailure_cons, ← except_ok_iff]
    refine or_congr_right ?_
    simp [except_bind_error_iff, ih, pure, Except.pure]

namespace Introspection

variable {config : Config} {models : List Model}

/-! ## References and associations -/

def OwnsTable (config : Config) (models : List Model) (target : Model) (table : String) : Prop :=
  ∃ before after, retained config models = before ++ target :: after ∧ target.table = table ∧
    ∀ r ∈ before, r.table ≠ table

theorem modelOfTable?_eq_some_iff :
    modelOfTable? config models table = some target ↔ OwnsTable config models target table := by
  rw [modelOfTable?, List.find?_eq_some_iff_append, OwnsTable]
  constructor
  · rintro ⟨htable, before, after, heq, hbefore⟩
    exact ⟨before, after, heq, by simpa using htable, by simpa using hbefore⟩
  · rintro ⟨before, after, heq, htable, hbefore⟩
    exact ⟨by simpa using htable, before, after, heq, by simpa using hbefore⟩

theorem OwnsTable.unique (h : OwnsTable config models target table)
    (h' : OwnsTable config models owner table) : target = owner := by
  rw [← modelOfTable?_eq_some_iff] at h h'
  exact Option.some.inj (h.symm.trans h')

theorem modelOfTable?_eq_none_iff :
    modelOfTable? config models table = none ↔ ∀ r ∈ retained config models, r.table ≠ table := by
  simp [modelOfTable?]

theorem modelNamed?_eq_none_iff :
    modelNamed? models name = none ↔ ∀ r ∈ models, r.name ≠ name := by
  simp [modelNamed?]

theorem modelNamed?_isSome_iff :
    (∃ target, modelNamed? models name = some target) ↔ ∃ r ∈ models, r.name = name := by
  rw [← Option.isSome_iff_exists, modelNamed?, List.find?_isSome]
  simp

def Generated (config : Config) (target : Model) (name : String) : Prop :=
  name ∉ config.excludedFields ∧ ∃ c ∈ target.attributes, c.name = name

theorem any_columns_iff :
    (columns config target).any (·.name = name) = true ↔ Generated config target name := by
  simp only [columns, List.any_eq_true, List.mem_filter, decide_eq_true_eq, Generated]
  constructor
  · rintro ⟨c, ⟨hc, hexcluded⟩, rfl⟩
    exact ⟨hexcluded, c, hc, rfl⟩
  · rintro ⟨hexcluded, c, hc, rfl⟩
    exact ⟨c, ⟨hc, hexcluded⟩, rfl⟩

theorem role_eq_reference_iff {a : Attribute} {key : ForeignKey} :
    a.role = .reference key ↔ a.domain.kind ≠ .enum ∧ a.references = some key := by
  rw [Attribute.role]
  cases hkind : a.domain.kind <;> cases href : a.references <;> simp

/-! ## What can be wrong -/

inductive Place where
  | column (m : Model) (a : Attribute)
  | association (m : Model) (a : Association)

def places (config : Config) (models : List Model) : List Place :=
  (retained config models).flatMap fun m =>
    (columns config m).map (.column m) ++ m.associations.map (.association m)

/-- What is wrong at a place. At most one thing is: a foreign key without a table leads to no model,
and a model without a primary key has no column for it. -/
inductive Violation (config : Config) (models : List Model) : Place → IntrospectionError → Prop
  | unresolved (hkind : a.domain.kind ≠ .enum) (hkey : a.references = some key)
      (htable : ∀ r ∈ retained config models, r.table ≠ key.table) :
      Violation config models (.column m a) (.unresolvedReference m.name a.name key.table)
  | noPrimaryKey (hkind : a.domain.kind ≠ .enum) (hkey : a.references = some key)
      (htable : OwnsTable config models target key.table) (hnone : target.primaryKey? = none) :
      Violation config models (.column m a) (.missingPrimaryKey m.name a.name target.name)
  | noColumn (hkind : a.domain.kind ≠ .enum) (hkey : a.references = some key)
      (htable : OwnsTable config models target key.table)
      (hprimary : target.primaryKey? = some primaryKey)
      (hcolumn : ¬ Generated config target primaryKey) :
      Violation config models (.column m a)
        (.missingKeyAttribute m.name a.name target.name primaryKey)
  | unknownTarget (htarget : ∀ r ∈ models, r.name ≠ a.target) :
      Violation config models (.association m a)
        (.unknownAssociationTarget m.name a.name a.target)

theorem resolveReference_error_iff (hkind : a.domain.kind ≠ .enum)
    (hkey : a.references = some key) : resolveReference config models m a key = .error e ↔
      Violation config models (.column m a) e := by
  constructor
  · intro h
    rw [resolveReference] at h
    split at h
    · next hnone =>
      cases h
      exact .unresolved hkind hkey (modelOfTable?_eq_none_iff.1 hnone)
    · next target htarget =>
      have htable := modelOfTable?_eq_some_iff.1 htarget
      split at h
      · next hnone =>
        cases h
        exact .noPrimaryKey hkind hkey htable hnone
      · next primaryKey hprimary =>
        split at h
        · cases h
        · next hcolumn =>
          cases h
          exact .noColumn hkind hkey htable hprimary (any_columns_iff.not.1 hcolumn)
  · intro h
    cases h with
    | unresolved _ hkey' htable =>
      cases hkey.symm.trans hkey'
      rw [resolveReference, modelOfTable?_eq_none_iff.2 htable]
    | noPrimaryKey _ hkey' htable hnone =>
      cases hkey.symm.trans hkey'
      simp only [resolveReference, modelOfTable?_eq_some_iff.2 htable, hnone]
    | noColumn _ hkey' htable hprimary hcolumn =>
      cases hkey.symm.trans hkey'
      simp only [resolveReference, modelOfTable?_eq_some_iff.2 htable, hprimary,
        if_neg (any_columns_iff.not.2 hcolumn)]

theorem field_error_iff :
    field config models m a = .error e ↔ Violation config models (.column m a) e := by
  cases hrole : a.role with
  | reference key =>
    obtain ⟨hkind, hkey⟩ := role_eq_reference_iff.1 hrole
    rw [← resolveReference_error_iff hkind hkey]
    simp [field, hrole, except_bind_error_iff, pure, Except.pure]
  -- other columns refer to nothing
  | _ =>
    have hreference : ∀ key, a.role ≠ .reference key := by simp [hrole]
    simp only [field, hrole, reduceCtorEq, false_iff]
    intro h
    cases h with
    | unresolved hkind hkey | noPrimaryKey hkind hkey | noColumn hkind hkey =>
      exact hreference _ (role_eq_reference_iff.2 ⟨hkind, hkey⟩)

theorem association_error_iff :
    association config models m a = .error e ↔ Violation config models (.association m a) e := by
  constructor
  · intro h
    rw [association] at h
    split at h
    · next hnone =>
      cases h
      exact .unknownTarget (modelNamed?_eq_none_iff.1 hnone)
    · cases h
  · intro h
    cases h with
    | unknownTarget htarget => rw [association, modelNamed?_eq_none_iff.2 htarget]

theorem group_error_iff : group config models m = .error e ↔
    FirstFailure (Violation config models)
      ((columns config m).map (.column m) ++ m.associations.map (.association m)) e := by
  -- associations come after all columns
  rw [firstFailure_append, firstFailure_map, firstFailure_map, List.forall_mem_map]
  simp only [← field_error_iff, ← association_error_iff]
  rw [← mapM_error_iff, ← mapM_error_iff, ← forall_not_firstFailure]
  simp only [← mapM_error_iff, ← except_ok_iff]
  simp [group, except_bind_error_iff, pure, Except.pure]

/-! ## Names declared twice -/

theorem firstRepeated?_eq_none_iff {l : List (String × String)} : firstRepeated? seen l = none ↔
    (∀ x ∈ l, x.1 ∉ seen) ∧ (l.map Prod.fst).Nodup := by
  induction l generalizing seen with
  | nil => simp [firstRepeated?]
  | cons x l ih =>
    -- the name of `x` is seen from now on
    have hcons : (∀ y ∈ l, y.1 ∉ x.1 :: seen) ↔
        (∀ y ∈ l, y.1 ∉ seen) ∧ x.1 ∉ l.map Prod.fst := by
      simp only [List.mem_cons, not_or, List.mem_map, not_exists, not_and]
      constructor
      · intro h
        exact ⟨fun y hy => (h y hy).2, fun y hy => (h y hy).1⟩
      · rintro ⟨hseen, hne⟩ y hy
        exact ⟨hne y hy, hseen y hy⟩
    rw [firstRepeated?]
    split
    · next hx => simp [hx]
    · next hx =>
      rw [ih, hcons, List.forall_mem_cons, List.map_cons, List.nodup_cons]
      tauto

theorem firstRepeated?_eq_some_iff {l : List (String × String)} :
    firstRepeated? seen l = some x ↔ ∃ before after, l = before ++ x :: after ∧
      firstRepeated? seen before = none ∧ (x.1 ∈ seen ∨ x.1 ∈ before.map Prod.fst) := by
  -- what was seen grows by every name in front of the repeated one
  induction l generalizing seen with
  | nil => simp [firstRepeated?]
  | cons y l ih =>
    constructor
    · intro h
      rw [firstRepeated?] at h
      split at h
      · next hy =>
        cases h
        exact ⟨[], l, rfl, rfl, .inl hy⟩
      · next hy =>
        obtain ⟨before, after, rfl, hbefore, hx⟩ := ih.1 h
        refine ⟨y :: before, after, rfl, ?_, ?_⟩
        · rw [firstRepeated?, if_neg hy]
          exact hbefore
        · rw [List.mem_cons, or_assoc] at hx
          rw [List.map_cons, List.mem_cons]
          tauto
    · rintro ⟨before, after, hl, hbefore, hx⟩
      cases before with
      | nil =>
        cases hl
        rw [firstRepeated?, if_pos (by simpa using hx)]
      | cons z before =>
        cases hl
        rw [firstRepeated?] at hbefore ⊢
        split at hbefore
        · cases hbefore
        · next hy =>
          rw [if_neg hy]
          refine ih.2 ⟨before, after, rfl, hbefore, ?_⟩
          rw [List.map_cons, List.mem_cons] at hx
          rw [List.mem_cons]
          tauto

/-- The documents of the retained models, without their bindings. -/
def drafts (config : Config) (models : List Model) : List Document :=
  (retained config models).flatMap fun m => groupOf config m [] []

theorem map_groupOf {f : Document → α}
    (hf : ∀ d, f (.model d) = f (.model { d with fields := [], associations := [] })) :
    (groupOf config m fields associations).map f = (groupOf config m [] []).map f := by
  simp [groupOf, hf ⟨_, _, _, fields, associations⟩]

theorem map_flatten_groups {f : Document → α}
    (hf : ∀ d, f (.model d) = f (.model { d with fields := [], associations := [] }))
    (h : List.Forall₂ (fun m own => group config models m = .ok own) ms groups) :
    groups.flatten.map f = (ms.flatMap fun m => groupOf config m [] []).map f := by
  induction h with
  | nil => rfl
  | cons hgroup _ ih =>
    obtain ⟨fields, associations, -, -, rfl⟩ := group_ok_iff.1 hgroup
    rw [List.flatten_cons, List.map_append, map_groupOf hf, ih, List.flatMap_cons, List.map_append]

theorem declarations_eq {documents : List Document} : declarations documents =
    (documents.map fun d => d.declaredNames.map (·, d.typeName)).flatten := by
  rw [declarations, List.flatMap_def]

theorem map_fst_declarations {documents : List Document} :
    (declarations documents).map Prod.fst = documents.flatMap Document.declaredNames := by
  simp [declarations, List.map_flatMap, Function.comp_def]

theorem introspect_ok_iff_nodup : introspect config models = .ok documents ↔ ∃ groups,
    List.Forall₂ (fun m own => group config models m = .ok own) (retained config models) groups ∧
      documents = groups.flatten ∧ (documents.flatMap Document.declaredNames).Nodup := by
  simp only [introspect_ok_iff, firstRepeated?_eq_none_iff, map_fst_declarations, List.not_mem_nil,
    not_false_eq_true, implies_true, true_and]
  refine exists_congr fun groups => and_congr_right fun _ => ?_
  constructor
  · rintro ⟨hnodup, rfl⟩
    exact ⟨rfl, hnodup⟩
  · rintro ⟨rfl, hnodup⟩
    exact ⟨hnodup, rfl⟩

theorem nodup_declaredNames (h : introspect config models = .ok documents) :
    (documents.flatMap Document.declaredNames).Nodup := by
  obtain ⟨_, -, -, hnodup⟩ := introspect_ok_iff_nodup.1 h
  exact hnodup

/-! ## Success and failure -/

/-- Foreign keys lead to the primary keys of retained models, which have columns for them. -/
def ReferencesResolve (config : Config) (models : List Model) : Prop :=
  ∀ m ∈ retained config models, ∀ a ∈ m.attributes, a.name ∉ config.excludedFields →
    a.domain.kind ≠ .enum → ∀ key, a.references = some key →
    ∃ target, OwnsTable config models target key.table ∧
      ∃ primaryKey, target.primaryKey? = some primaryKey ∧ Generated config target primaryKey

/-- Associations lead to models, which may be excluded. -/
def AssociationsResolve (config : Config) (models : List Model) : Prop :=
  ∀ m ∈ retained config models, ∀ a ∈ m.associations, ∃ target ∈ models, target.name = a.target

inductive Failure (config : Config) (models : List Model) : IntrospectionError → Prop
  | violation (h : FirstFailure (Violation config models) (places config models) e) :
      Failure config models e
  /-- The first name that was declared before, and the type name of the document that repeats it. -/
  | repeated (hplaces : ∀ p ∈ places config models, ∀ e, ¬ Violation config models p e)
      (hnames : declarations (drafts config models) = before ++ (name, document) :: after)
      (hbefore : (before.map Prod.fst).Nodup) (hname : name ∈ before.map Prod.fst) :
      Failure config models (.duplicateTypeName name document)

theorem references_column_iff : (∀ e, ¬ Violation config models (.column m a) e) ↔
    (a.domain.kind ≠ .enum → ∀ key, a.references = some key →
      ∃ target, OwnsTable config models target key.table ∧
        ∃ primaryKey, target.primaryKey? = some primaryKey ∧
          Generated config target primaryKey) := by
  constructor
  · intro h hkind key hkey
    cases htarget : modelOfTable? config models key.table with
    | none => exact absurd (.unresolved hkind hkey (modelOfTable?_eq_none_iff.1 htarget)) (h _)
    | some target =>
      have htable := modelOfTable?_eq_some_iff.1 htarget
      refine ⟨target, htable, ?_⟩
      cases hprimary : target.primaryKey? with
      | none => exact absurd (.noPrimaryKey hkind hkey htable hprimary) (h _)
      | some primaryKey =>
        refine ⟨primaryKey, rfl, ?_⟩
        by_contra hcolumn
        exact h _ (.noColumn hkind hkey htable hprimary hcolumn)
  · intro h e hviolation
    cases hviolation with
    | unresolved hkind hkey htable =>
      obtain ⟨target, ⟨before, after, heq, htarget, -⟩, -⟩ := h hkind _ hkey
      exact htable target (by simp [heq]) htarget
    | noPrimaryKey hkind hkey htable hnone =>
      obtain ⟨target, htarget, primaryKey, hprimary, -⟩ := h hkind _ hkey
      -- a table has one owner, so both speak of the same model
      obtain rfl := htable.unique htarget
      cases hnone.symm.trans hprimary
    | noColumn hkind hkey htable hprimary hcolumn =>
      obtain ⟨target, htarget, primaryKey, hprimary', hgenerated⟩ := h hkind _ hkey
      obtain rfl := htable.unique htarget
      cases hprimary.symm.trans hprimary'
      exact hcolumn hgenerated

theorem association_target_iff : (∀ e, ¬ Violation config models (.association m a) e) ↔
    ∃ target ∈ models, target.name = a.target := by
  simp only [← association_error_iff, ← ne_eq, ← except_ok_iff, association_ok_iff,
    ← modelNamed?_isSome_iff]
  constructor
  · rintro ⟨_, target, htarget, -⟩
    exact ⟨target, htarget⟩
  · rintro ⟨target, htarget⟩
    exact ⟨_, target, htarget, rfl⟩

theorem no_violation_iff : (∀ p ∈ places config models, ∀ e, ¬ Violation config models p e) ↔
    ReferencesResolve config models ∧ AssociationsResolve config models := by
  simp only [places, List.forall_mem_flatMap, List.forall_mem_append, List.forall_mem_map,
    references_column_iff, association_target_iff, forall_and, columns, List.mem_filter,
    decide_eq_true_eq, and_imp, ReferencesResolve, AssociationsResolve]

theorem groups_error_iff : (retained config models).mapM (group config models) = .error e ↔
    FirstFailure (Violation config models) (places config models) e := by
  rw [places, firstFailure_flatMap, mapM_error_iff]
  simp only [group_error_iff]

theorem groups_ok_iff :
    (∃ groups, (retained config models).mapM (group config models) = .ok groups) ↔
    ∀ p ∈ places config models, ∀ e, ¬ Violation config models p e := by
  rw [except_ok_iff, ← forall_not_firstFailure]
  simp only [ne_eq, groups_error_iff]

theorem introspect_of_groups
    (h : (retained config models).mapM (group config models) = .ok groups) :
    introspect config models = match firstRepeated? [] (declarations (drafts config models)) with
      | some (name, document) => .error (.duplicateTypeName name document)
      | none => .ok groups.flatten := by
  have hnames : declarations groups.flatten = declarations (drafts config models) := by
    rw [declarations_eq, declarations_eq, map_flatten_groups (fun _ => rfl) (mapM_ok_iff.1 h),
      drafts]
  rw [introspect, h, ← hnames]
  rfl

theorem introspect_error_iff :
    introspect config models = .error e ↔ Failure config models e := by
  constructor
  · intro h
    -- names are compared only if every model has its documents
    cases hgroups : (retained config models).mapM (group config models) with
    | error e' =>
      rw [introspect, hgroups] at h
      cases h
      exact .violation (groups_error_iff.1 hgroups)
    | ok groups =>
      rw [introspect_of_groups hgroups] at h
      split at h
      · next name document hrepeated =>
        cases h
        obtain ⟨before, after, hnames, hbefore, hname⟩ := firstRepeated?_eq_some_iff.1 hrepeated
        exact .repeated (groups_ok_iff.1 ⟨groups, hgroups⟩) hnames
          (firstRepeated?_eq_none_iff.1 hbefore).2 (by simpa using hname)
      · cases h
  · rintro (h | ⟨hplaces, hnames, hbefore, hname⟩)
    · rw [introspect, groups_error_iff.2 h]
      rfl
    · obtain ⟨groups, hgroups⟩ := groups_ok_iff.2 hplaces
      have hnone := (@firstRepeated?_eq_none_iff [] _).2 ⟨by simp, hbefore⟩
      rw [introspect_of_groups hgroups,
        firstRepeated?_eq_some_iff.2 ⟨_, _, hnames, hnone, .inr hname⟩]

theorem introspect_succeeds_iff : (∃ documents, introspect config models = .ok documents) ↔
    ReferencesResolve config models ∧ AssociationsResolve config models ∧
      ((drafts config models).flatMap Document.declaredNames).Nodup := by
  rw [← and_assoc, ← no_violation_iff, ← groups_ok_iff, ← map_fst_declarations]
  constructor
  · rintro ⟨documents, h⟩
    obtain ⟨groups, hgroups, -, -⟩ := introspect_ok_iff.1 h
    rw [← mapM_ok_iff] at hgroups
    refine ⟨⟨groups, hgroups⟩, ?_⟩
    rw [introspect_of_groups hgroups] at h
    split at h
    · cases h
    · next hnone => exact (firstRepeated?_eq_none_iff.1 hnone).2
  · rintro ⟨⟨groups, hgroups⟩, hnodup⟩
    refine ⟨groups.flatten, ?_⟩
    rw [introspect_of_groups hgroups, firstRepeated?_eq_none_iff.2 ⟨by simp, hnodup⟩]

theorem declaredNames_drafts (h : introspect config models = .ok documents) :
    documents.map Document.declaredNames =
      (drafts config models).map Document.declaredNames := by
  obtain ⟨groups, hgroups, -, rfl⟩ := introspect_ok_iff.1 h
  rw [map_flatten_groups (fun _ => rfl) hgroups, drafts]

/-- Introspection succeeds if and only if the foreign keys and associations of the retained models
resolve and no two declared names are the same. It fails with what is wrong first. -/
theorem introspect_outcome (config : Config) (models : List Model) :
    ((∃ documents, introspect config models = .ok documents) ↔
      ReferencesResolve config models ∧ AssociationsResolve config models ∧
        ((drafts config models).flatMap Document.declaredNames).Nodup) ∧
    (∀ e, introspect config models = .error e ↔ Failure config models e) ∧
    (∀ documents, introspect config models = .ok documents →
      documents.map Document.declaredNames =
        (drafts config models).map Document.declaredNames) :=
  ⟨introspect_succeeds_iff, fun _ => introspect_error_iff, fun _ => declaredNames_drafts⟩

def sampleBlog : List Model :=
  [{ name := "user"
     attributes := [{ name := "id", domain := .numeric, primaryKey := true },
       { name := "status", domain := .enumerated, values := ["active"] }] },
   { name := "post"
     attributes := [{ name := "userId", domain := .numeric, references := some ⟨"user", none⟩ }]
     associations := [⟨"author", "user", .belongsTo⟩] }]

def sampleBroken : List Model :=
  [{ name := "post", associations := [⟨"author", "user", .belongsTo⟩] },
   { name := "post"
     attributes := [{ name := "userId", domain := .numeric, references := some ⟨"user", none⟩ }] }]

theorem introspect_outcome_blog :
    (∃ documents, introspect {} sampleBlog = .ok documents ∧
      documents.map Document.declaredNames =
        (drafts {} sampleBlog).map Document.declaredNames) ∧
    Failure {} sampleBroken (.unknownAssociationTarget "post" "author" "user") := by
  constructor
  · have h : introspect {} sampleBlog = .ok [
        .enum ⟨"UserStatus", "$", ["active"]⟩,
        .model ⟨"User", "$", [⟨"$UserId", .number⟩],
          [{ key := "id", value := .named "$UserId" },
            { key := "status", value := .named "$UserStatus" }], []⟩,
        .model ⟨"Post", "$", [], [{ key := "userId", value := .named "$UserId" }],
          [{ key := "author", value := .named "$User", optional := true }]⟩] := by
      with_unfolding_all rfl
    exact ⟨_, h, (introspect_outcome {} sampleBlog).2.2 _ h⟩
  · have h : introspect {} sampleBroken =
        .error (.unknownAssociationTarget "post" "author" "user") := by
      with_unfolding_all rfl
    exact ((introspect_outcome {} sampleBroken).2.1 _).1 h

end Introspection

end ModelTypes
