import ModelTypes.Proofs.Introspection.Groups

/-!
# Excluded models and columns

Of an excluded model only the names show, and of an excluded column only its name and whether it is
flagged as a key. Unless an association leads to an excluded model, the schema without what is
excluded has the same documents.
-/

namespace ModelTypes

/-- Columns that are the same, or excluded with the same name and flag. -/
inductive Attribute.Alike (config : Config) : Attribute → Attribute → Prop
  | same : Alike config a a
  | excluded (h : a.name ∈ config.excludedFields) (hname : a.name = b.name)
      (hflag : a.primaryKey = b.primaryKey) : Alike config a b

inductive Model.Alike (config : Config) : Model → Model → Prop
  | columns (h : List.Forall₂ (Attribute.Alike config) m.attributes as) :
      Alike config m { m with attributes := as }
  | excluded (h : m.name ∈ config.excludedModels) (hname : m.name = m'.name)
      (hsingular : m.singular = m'.singular) : Alike config m m'

/-! ## Runs through related lists -/

theorem find?_related {R : α → β → Prop} {p : α → Bool} {q : β → Bool}
    (h : List.Forall₂ R l r) (hR : ∀ a b, R a b → p a = q b) :
    Option.Rel R (l.find? p) (r.find? q) := by
  induction h with
  | nil => exact .none
  | @cons a b l r hab _ ih =>
    rw [List.find?_cons, List.find?_cons, hR a b hab]
    cases q b with
    | true => exact .some hab
    | false => exact ih

theorem mapM_related {R : α → β → Prop} {f : α → Except ε γ} {g : β → Except ε γ}
    (h : List.Forall₂ R l r) (hR : ∀ a b, R a b → f a = g b) : l.mapM f = r.mapM g := by
  induction h with
  | nil => rfl
  | cons hab _ ih => rw [List.mapM_cons, List.mapM_cons, hR _ _ hab, ih]

namespace Introspection

variable {config : Config} {models models' : List Model} {m m' target : Model}
  {as : List Attribute} {documents : List Document}

/-! ## What shows -/

/-- Models that are the same in all that a run looks at in a retained model. -/
structure Shown (config : Config) (m m' : Model) : Prop where
  name : m.name = m'.name
  table : m.table = m'.table
  singular : m.singular = m'.singular
  primaryKey : m.primaryKey? = m'.primaryKey?
  columns : columns config m = columns config m'
  associations : m.associations = m'.associations

theorem filter_alike (h : List.Forall₂ (Attribute.Alike config) as as') :
    as.filter (·.name ∉ config.excludedFields) = as'.filter (·.name ∉ config.excludedFields) := by
  induction h with
  | nil => rfl
  | cons hfirst _ ih =>
    cases hfirst with
    | same => rw [List.filter_cons, List.filter_cons, ih]
    | excluded h hname =>
      rw [List.filter_cons_of_neg (by simpa using h),
        List.filter_cons_of_neg (by simpa [← hname] using h), ih]

theorem primaryKey?_alike (h : List.Forall₂ (Attribute.Alike config) m.attributes as) :
    m.primaryKey? = { m with attributes := as }.primaryKey? := by
  have hflag : ∀ a b, Attribute.Alike config a b → a.primaryKey = b.primaryKey := by
    rintro a b (_ | ⟨_, _, hflag⟩)
    · rfl
    · exact hflag
  have hfound := find?_related h hflag
  unfold Model.primaryKey?
  simp only
  generalize m.attributes.find? (·.primaryKey) = found at hfound ⊢
  generalize as.find? (·.primaryKey) = found' at hfound ⊢
  rcases hfound with ⟨_ | ⟨_, hname, _⟩⟩ | _
  · rfl
  · rw [Option.map_some, hname, Option.map_some]
  · rfl

theorem names_alike (h : Model.Alike config m m') : m.name = m'.name ∧ m.singular = m'.singular := by
  cases h with
  | columns => exact ⟨rfl, rfl⟩
  | excluded _ hname hsingular => exact ⟨hname, hsingular⟩

theorem retained_alike (h : List.Forall₂ (Model.Alike config) models models') :
    List.Forall₂ (Shown config) (retained config models) (retained config models') := by
  have hfilter : List.Forall₂ (Model.Alike config) (retained config models)
      (retained config models') :=
    List.rel_filter (fun m m' h => by simp [(names_alike h).1]) h
  have hmem := (List.forall₂_and_left _ _).2 ⟨fun m hm => hm, hfilter⟩
  refine hmem.imp ?_
  rintro m m' ⟨hm, hcolumns | hexcluded⟩
  · exact ⟨rfl, rfl, rfl, primaryKey?_alike hcolumns, filter_alike hcolumns, rfl⟩
  · simp [retained, hexcluded] at hm

/-! ## The same results -/

theorem modelOfTable?_alike (h : List.Forall₂ (Model.Alike config) models models') :
    Option.Rel (Shown config) (modelOfTable? config models table)
      (modelOfTable? config models' table) :=
  find?_related (retained_alike h) fun m m' hm => by rw [hm.table]

theorem modelNamed?_alike (h : List.Forall₂ (Model.Alike config) models models') :
    Option.Rel (Model.Alike config) (modelNamed? models name) (modelNamed? models' name) :=
  find?_related h fun m m' hm => by rw [(names_alike hm).1]

theorem resolveReference_alike (h : List.Forall₂ (Model.Alike config) models models')
    (hm : m.name = m'.name) :
    resolveReference config models m a key = resolveReference config models' m' a key := by
  have htarget : Option.Rel (Shown config) (modelOfTable? config models key.table)
      (modelOfTable? config models' key.table) := modelOfTable?_alike h
  unfold resolveReference
  generalize modelOfTable? config models key.table = target at htarget ⊢
  generalize modelOfTable? config models' key.table = target' at htarget ⊢
  cases htarget with
  | none => simp only [hm]
  | some hshown => simp only [hshown.primaryKey, hshown.columns, hshown.name, hm, referenceName,
      hshown.singular]

theorem field_alike (h : List.Forall₂ (Model.Alike config) models models')
    (hm : m.name = m'.name) : field config models m a = field config models' m' a := by
  unfold field
  simp only [resolveReference_alike h hm, localName, hm]

theorem association_alike (h : List.Forall₂ (Model.Alike config) models models')
    (hm : m.name = m'.name) :
    association config models m a = association config models' m' a := by
  have htarget : Option.Rel (Model.Alike config) (modelNamed? models a.target)
      (modelNamed? models' a.target) := modelNamed?_alike h
  unfold association
  generalize modelNamed? models a.target = target at htarget ⊢
  generalize modelNamed? models' a.target = target' at htarget ⊢
  cases htarget with
  | none => simp only [hm]
  | some halike => simp only [referenceName, (names_alike halike).2]

theorem group_alike (h : List.Forall₂ (Model.Alike config) models models')
    (hm : Shown config m m') : group config models m = group config models' m' := by
  have hfield : field config models m = field config models' m' :=
    funext fun a => field_alike h hm.name
  have hassociation : association config models m = association config models' m' :=
    funext fun a => association_alike h hm.name
  have henumeration : enumeration? config m = enumeration? config m' := by
    funext a
    simp only [enumeration?, localName, hm.name]
  have halias : alias? config m = alias? config m' := by
    funext a
    simp only [alias?, localName, hm.name]
  unfold group
  simp only [hfield, hassociation, henumeration, halias, hm.columns, hm.associations, hm.name]

theorem introspect_alike (h : List.Forall₂ (Model.Alike config) models models') :
    introspect config models = introspect config models' := by
  unfold introspect
  rw [mapM_related (retained_alike h) fun m m' hm => group_alike h hm]

/-! ## The schema without what is excluded -/

def unrestricted (config : Config) : Config :=
  { config with excludedModels := ∅, excludedFields := ∅ }

def pruneModel (config : Config) (m : Model) : Model :=
  { m with attributes := columns config m }

def prune (config : Config) (models : List Model) : List Model :=
  (retained config models).map (pruneModel config)

theorem not_mem_empty (name : String) : name ∉ (∅ : NameSet) := List.not_mem_nil

theorem columns_pruneModel :
    columns (unrestricted config) (pruneModel config m) = columns config m := by
  unfold columns
  exact List.filter_eq_self.2 fun a _ => decide_eq_true (not_mem_empty a.name)

theorem retained_prune : retained (unrestricted config) (prune config models) =
    (retained config models).map (pruneModel config) :=
  List.filter_eq_self.2 fun m _ => decide_eq_true (not_mem_empty m.name)

theorem modelOfTable?_prune : modelOfTable? (unrestricted config) (prune config models) table =
    (modelOfTable? config models table).map (pruneModel config) := by
  unfold modelOfTable?
  rw [retained_prune, List.find?_map]
  rfl

theorem modelNamed?_prune (h : name ∉ config.excludedModels) :
    modelNamed? (prune config models) name = (modelNamed? models name).map (pruneModel config) := by
  unfold modelNamed? prune retained
  rw [List.find?_map, List.find?_filter]
  congr 2
  funext m
  by_cases hm : m.name = name
  · simp [pruneModel, hm, h]
  · simp [pruneModel, hm]

theorem primaryKey?_pruneModel (hkey : target.primaryKey? = some primaryKey)
    (hcolumn : ∃ c ∈ columns config target, c.name = primaryKey) :
    (pruneModel config target).primaryKey? = some primaryKey := by
  unfold Model.primaryKey? at *
  cases hdeclared : target.declaredKey with
  | some key => simpa [pruneModel, hdeclared] using hkey
  | none =>
    simp only [pruneModel, hdeclared, Option.orElse_eq_orElse, Option.none_or, Option.orElse_eq_or,
      Option.map_eq_some_iff] at hkey ⊢
    obtain ⟨a, ha, rfl⟩ := hkey
    obtain ⟨c, hc, hname⟩ := hcolumn
    have hgenerated : a.name ∉ config.excludedFields := by
      simpa [← hname] using (List.mem_filter.1 hc).2
    refine ⟨a, ?_, rfl⟩
    -- the first flagged column is not excluded, so it is the first one left
    obtain ⟨hflag, before, after, hsplit, hbefore⟩ := List.find?_eq_some_iff_append.1 ha
    refine List.find?_eq_some_iff_append.2 ⟨hflag, before.filter (·.name ∉ config.excludedFields),
      after.filter (·.name ∉ config.excludedFields), ?_, ?_⟩
    · simp [columns, hsplit, hgenerated]
    · exact fun b hb => hbefore b (List.mem_of_mem_filter hb)

theorem resolveReference_prune (h : resolveReference config models m a key = .ok type) :
    resolveReference (unrestricted config) (prune config models) (pruneModel config m) a key =
      .ok type := by
  obtain ⟨target, primaryKey, htarget, hkey, hcolumn, rfl⟩ := resolveReference_ok_iff.1 h
  refine resolveReference_ok_iff.2 ⟨pruneModel config target, primaryKey, ?_,
    primaryKey?_pruneModel hkey hcolumn, ?_, rfl⟩
  · rw [modelOfTable?_prune, htarget, Option.map_some]
  · rwa [columns_pruneModel]

theorem field_prune (h : field config models m a = .ok b) :
    field (unrestricted config) (prune config models) (pruneModel config m) a = .ok b := by
  cases hrole : a.role with
  | reference key =>
    simp only [field, hrole, except_bind_ok_iff] at h ⊢
    obtain ⟨type, htype, hb⟩ := h
    exact ⟨type, resolveReference_prune htype, hb⟩
  | _ =>
    simp only [field, hrole] at h ⊢
    exact h

theorem association_prune (htarget : a.target ∉ config.excludedModels)
    (h : association config models m a = .ok b) :
    association (unrestricted config) (prune config models) (pruneModel config m) a = .ok b := by
  rw [association_ok_iff] at h ⊢
  obtain ⟨target, hfound, rfl⟩ := h
  exact ⟨pruneModel config target, by rw [modelNamed?_prune htarget, hfound, Option.map_some], rfl⟩

theorem groupOf_pruneModel :
    groupOf (unrestricted config) (pruneModel config m) fields associations =
      groupOf config m fields associations := by
  unfold groupOf
  rw [columns_pruneModel]
  rfl

theorem group_prune (htargets : ∀ a ∈ m.associations, a.target ∉ config.excludedModels)
    (h : group config models m = .ok own) :
    group (unrestricted config) (prune config models) (pruneModel config m) = .ok own := by
  obtain ⟨fields, associations, hfields, hassociations, rfl⟩ := group_ok_iff.1 h
  refine group_ok_iff.2 ⟨fields, associations, ?_, ?_, groupOf_pruneModel.symm⟩
  · rw [columns_pruneModel]
    exact hfields.imp fun a b h => field_prune h
  · have hmem := (List.forall₂_and_left _ _).2 ⟨htargets, hassociations⟩
    exact hmem.imp fun a b h => association_prune h.1 h.2

theorem introspect_prune (h : introspect config models = .ok documents)
    (htargets : ∀ m ∈ retained config models, ∀ a ∈ m.associations,
      a.target ∉ config.excludedModels) :
    introspect (unrestricted config) (prune config models) = .ok documents := by
  obtain ⟨groups, hgroups, hnone, rfl⟩ := introspect_ok_iff.1 h
  refine introspect_ok_iff.2 ⟨groups, ?_, hnone, rfl⟩
  rw [retained_prune, List.forall₂_map_left_iff]
  have hmem := (List.forall₂_and_left _ _).2 ⟨htargets, hgroups⟩
  exact hmem.imp fun m own h => group_prune h.1 h.2

/-- What is excluded shows only through names and flags. If a run succeeds and no association leads
to an excluded model, it gives the documents of the schema without what is excluded. -/
theorem introspect_exclusion (config : Config) (models : List Model) :
    (∀ models', List.Forall₂ (Model.Alike config) models models' →
      introspect config models = introspect config models') ∧
    ∀ documents, introspect config models = .ok documents →
      (∀ m ∈ retained config models, ∀ a ∈ m.associations, a.target ∉ config.excludedModels) →
      introspect (unrestricted config) (prune config models) = .ok documents :=
  ⟨fun _ => introspect_alike, fun _ => introspect_prune⟩

/-- An excluded model and an excluded column, of which more may be known or less, and a note that
refers to the account. -/
def sampleNotes (session : List Attribute) (createdAt : ValueDomain) : List Model :=
  [{ name := "session", attributes := session },
    { name := "account"
      attributes := [{ name := "createdAt", domain := createdAt },
        { name := "id", domain := .numeric, primaryKey := true }] },
    { name := "note"
      attributes := [{ name := "accountId", domain := .numeric, references := some ⟨"account", none⟩ }]
      associations := [⟨"account", "account", .belongsTo⟩] }]

def sampleDangling : Attribute :=
  { name := "userId", domain := .numeric, references := some ⟨"users", none⟩ }

def sessionConfig : Config :=
  { excludedModels := .ofList ["session"] }

def noteDocuments : List Document :=
  [.model ⟨"Account", "$", [⟨"$AccountId", .number⟩],
      [{ key := "id", value := .named "$AccountId" }], []⟩,
    .model ⟨"Note", "$", [], [{ key := "accountId", value := .named "$AccountId" }],
      [{ key := "account", value := .named "$Account", optional := true }]⟩]

theorem alike_sampleNotes : List.Forall₂ (Model.Alike sessionConfig)
    (sampleNotes [sampleDangling] .temporal) (sampleNotes [] .enumerated) := by
  have hsession : "session" ∈ sessionConfig.excludedModels := by decide +kernel
  have hcreatedAt : "createdAt" ∈ sessionConfig.excludedFields := by decide +kernel
  refine .cons (.excluded hsession rfl rfl) (.cons (.columns ?_) (.cons (.columns ?_) .nil))
  · exact .cons (.excluded hcreatedAt rfl rfl) (.cons .same .nil)
  · exact .cons .same .nil

theorem targets_sampleNotes : ∀ m ∈ retained sessionConfig (sampleNotes [] .enumerated),
    ∀ a ∈ m.associations, a.target ∉ sessionConfig.excludedModels := by
  have hretained : retained sessionConfig (sampleNotes [] .enumerated) =
      (sampleNotes [] .enumerated).tail := by
    with_unfolding_all rfl
  rw [hretained]
  rintro m (_ | ⟨_, _ | ⟨_, ⟨⟩⟩⟩) a ha
  · cases ha
  · obtain rfl := List.mem_singleton.1 ha
    decide +kernel

theorem introspect_exclusion_sample :
    (List.Forall₂ (Model.Alike sessionConfig) (sampleNotes [sampleDangling] .temporal)
        (sampleNotes [] .enumerated) ∧
      introspect sessionConfig (sampleNotes [sampleDangling] .temporal) =
        introspect sessionConfig (sampleNotes [] .enumerated)) ∧
    (introspect sessionConfig (sampleNotes [] .enumerated) = .ok noteDocuments ∧
      introspect (unrestricted sessionConfig) (prune sessionConfig (sampleNotes [] .enumerated)) =
        .ok noteDocuments) := by
  have hdocuments : introspect sessionConfig (sampleNotes [] .enumerated) = .ok noteDocuments := by
    with_unfolding_all rfl
  have halike := (introspect_exclusion sessionConfig (sampleNotes [sampleDangling] .temporal)).1 _
    alike_sampleNotes
  have hprune := (introspect_exclusion sessionConfig (sampleNotes [] .enumerated)).2 _ hdocuments
    targets_sampleNotes
  exact ⟨⟨alike_sampleNotes, halike⟩, hdocuments, hprune⟩

end Introspection

end ModelTypes
