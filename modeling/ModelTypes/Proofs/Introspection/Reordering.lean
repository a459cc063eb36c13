import Mathlib.Data.List.Nodup
import Mathlib.Data.List.Perm.Basic
import ModelTypes.Generator
import ModelTypes.Proofs.Introspection.Contents
import ModelTypes.Proofs.Introspection.Declared

/-!
# More models and other orders

The documents of a model depend on the other models only through the first one with a table or a
name. Where names and tables are distinct the first is the only one, so that neither more models nor
another order change the documents of a model.
-/

namespace ModelTypes

theorem find?_of_mem [DecidableEq β] {f : α → β} {l : List α} (hnodup : (l.map f).Nodup)
    (ha : a ∈ l) : l.find? (f · = f a) = some a := by
  cases hfound : l.find? (f · = f a) with
  | none => simpa using List.find?_eq_none.1 hfound a ha
  | some b =>
    have hb : f b = f a := by simpa using List.find?_some hfound
    rw [List.inj_on_of_nodup_map hnodup (List.mem_of_find?_eq_some hfound) ha hb]

theorem find?_of_subset [DecidableEq β] {f : α → β} {l l' : List α} (hsub : l ⊆ l')
    (hnodup : (l'.map f).Nodup) (h : l.find? (f · = k) = some a) : l'.find? (f · = k) = some a := by
  obtain rfl : f a = k := by simpa using List.find?_some h
  exact find?_of_mem hnodup (hsub (List.mem_of_find?_eq_some h))

namespace Introspection

variable {config : Config} {models models' : List Model} {m : Model} {documents own : List Document}

/-- What a model refers to among some models it finds among others as well. -/
structure Extends (config : Config) (models models' : List Model) : Prop where
  tables : modelOfTable? config models table = some target →
    modelOfTable? config models' table = some target
  names : modelNamed? models name = some target → modelNamed? models' name = some target

theorem extends_of_subset (hsub : models ⊆ models') (hnames : (models'.map Model.name).Nodup)
    (htables : ((retained config models').map Model.table).Nodup) :
    Extends config models models' := by
  have hretained : retained config models ⊆ retained config models' := List.filter_subset _ hsub
  exact ⟨find?_of_subset hretained htables, find?_of_subset hsub hnames⟩

/-! ## Documents of one model -/

theorem FieldOf.extend (h : Extends config models models') (hfield : FieldOf config models m a b) :
    FieldOf config models' m a b := by
  cases hfield with
  | enumerated hkind => exact .enumerated hkind
  | key hkind hkey htable hprimary hcolumn =>
    rw [← modelOfTable?_eq_some_iff] at htable
    exact .key hkind hkey (modelOfTable?_eq_some_iff.1 (h.tables htable)) hprimary hcolumn
  | scalar hkind hnone hvalue => exact .scalar hkind hnone hvalue

theorem AssociationOf.extend (h : Extends config models models')
    (hassociation : AssociationOf config models a b) : AssociationOf config models' a b := by
  cases hassociation with
  | toMany hkind htarget => exact .toMany hkind (h.names htarget)
  | toOne hkind htarget => exact .toOne hkind (h.names htarget)

theorem group_extend (h : Extends config models models') (hgroup : group config models m = .ok own) :
    group config models' m = .ok own := by
  rw [group_ok_iff_documents] at hgroup ⊢
  obtain ⟨hfields, hassociations⟩ := hgroup
  exact .documents (hfields.imp fun _ _ => .extend h) (hassociations.imp fun _ _ => .extend h)

/-! ## Runs -/

theorem introspect_ok_iff_flatMap : introspect config models = .ok documents ↔
    ∃ own : Model → List Document,
      (∀ m ∈ retained config models, group config models m = .ok (own m)) ∧
      documents = (retained config models).flatMap own ∧
      (documents.flatMap Document.declaredNames).Nodup := by
  rw [introspect_ok_iff_nodup]
  constructor
  · rintro ⟨groups, hgroups, rfl, hnodup⟩
    -- a group depends on its model alone, so the groups are the values of a function
    let own (m : Model) : List Document := ((group config models m).toOption).getD []
    have hown : List.Forall₂ (fun m own' => own m = own') (retained config models) groups :=
      hgroups.imp fun m own' h => by simp [own, h, Except.toOption]
    rw [← List.forall₂_map_left_iff, List.forall₂_eq_eq_eq] at hown
    subst hown
    rw [List.forall₂_map_right_iff, List.forall₂_same] at hgroups
    exact ⟨own, hgroups, List.flatMap_def.symm, hnodup⟩
  · rintro ⟨own, hown, rfl, hnodup⟩
    refine ⟨(retained config models).map own, ?_, List.flatMap_def, hnodup⟩
    rw [List.forall₂_map_right_iff, List.forall₂_same]
    exact hown

theorem documents_extend (h : Extends config models models') (hsub : models ⊆ models')
    (hdocuments : introspect config models = .ok documents)
    (hdocuments' : introspect config models' = .ok documents') : ∃ own : Model → List Document,
      (∀ m ∈ retained config models, DocumentsOf config models m (own m)) ∧
      (∀ m ∈ retained config models', DocumentsOf config models' m (own m)) ∧
      documents = (retained config models).flatMap own ∧
      documents' = (retained config models').flatMap own := by
  obtain ⟨own, hown, rfl, -⟩ := introspect_ok_iff_flatMap.1 hdocuments
  obtain ⟨own', hown', rfl, -⟩ := introspect_ok_iff_flatMap.1 hdocuments'
  have hretained : retained config models ⊆ retained config models' := List.filter_subset _ hsub
  have hsame : ∀ m ∈ retained config models, own m = own' m := by
    intro m hm
    exact Except.ok.inj ((group_extend h (hown m hm)).symm.trans (hown' m (hretained hm)))
  refine ⟨own', ?_, ?_, List.flatMap_congr hsame, rfl⟩
  · intro m hm
    rw [← hsame m hm]
    exact group_ok_iff_documents.1 (hown m hm)
  · intro m hm
    exact group_ok_iff_documents.1 (hown' m hm)

theorem introspect_perm (h : Extends config models models') (hperm : models.Perm models')
    (hdocuments : introspect config models = .ok documents) :
    ∃ documents', introspect config models' = .ok documents' := by
  obtain ⟨own, hown, rfl, hnodup⟩ := introspect_ok_iff_flatMap.1 hdocuments
  have hretained : (retained config models).Perm (retained config models') := hperm.filter _
  refine ⟨_, introspect_ok_iff_flatMap.2 ⟨own, ?_, rfl, ?_⟩⟩
  · intro m hm
    exact group_extend h (hown m (hretained.mem_iff.2 hm))
  · exact (((hretained.flatMap_right own).flatMap_right _).nodup_iff).1 hnodup

/-- Among models with distinct names and tables, each model has the same documents as among fewer
models, and they stand in the order of the models. So a file that is made among fewer models is made
among more. Another order does not make a run fail. -/
theorem introspect_reordered (hsub : models ⊆ models') (hnames : (models'.map Model.name).Nodup)
    (htables : ((retained config models').map Model.table).Nodup) :
    (∀ documents documents', introspect config models = .ok documents →
      introspect config models' = .ok documents' →
        (∃ own : Model → List Document,
          (∀ m ∈ retained config models, DocumentsOf config models m (own m)) ∧
          (∀ m ∈ retained config models', DocumentsOf config models' m (own m)) ∧
          documents = (retained config models).flatMap own ∧
          documents' = (retained config models').flatMap own) ∧
        ∀ (g : Generator) (file : RenderedFile), (∃ d ∈ documents, g.render d = .ok file) →
          ∃ d ∈ documents', g.render d = .ok file) ∧
    (models.Perm models' → ((∃ documents, introspect config models = .ok documents) ↔
      ∃ documents', introspect config models' = .ok documents')) := by
  have h : Extends config models models' := extends_of_subset hsub hnames htables
  constructor
  · intro documents documents' hdocuments hdocuments'
    have hown := documents_extend h hsub hdocuments hdocuments'
    refine ⟨hown, ?_⟩
    rintro g file ⟨d, hd, hfile⟩
    obtain ⟨own, -, -, rfl, rfl⟩ := hown
    obtain ⟨m, hm, hd⟩ := List.mem_flatMap.1 hd
    exact ⟨d, List.mem_flatMap.2 ⟨m, List.filter_subset _ hsub hm, hd⟩, hfile⟩
  · intro hperm
    have hretained : (retained config models).Perm (retained config models') := hperm.filter _
    have h' : Extends config models' models := extends_of_subset hperm.symm.subset
      ((hperm.map _).nodup_iff.2 hnames) ((hretained.map _).nodup_iff.2 htables)
    constructor
    · rintro ⟨documents, hdocuments⟩
      exact introspect_perm h hperm hdocuments
    · rintro ⟨documents, hdocuments⟩
      exact introspect_perm h' hperm.symm hdocuments

def sampleTeam : Model where
  name := "team"
  attributes := [{ name := "id", domain := .numeric, primaryKey := true },
    { name := "leaderId", domain := .numeric, references := some ⟨"users", none⟩ },
    { name := "parentId", domain := .numeric, references := some ⟨"team", none⟩ }]
  associations := [⟨"members", "user", .hasMany⟩]

def sampleTeamDocument : ModelDocument :=
  ⟨"Team", "$", [⟨"$TeamId", .number⟩],
    [{ key := "id", value := .named "$TeamId" }, { key := "leaderId", value := .named "$UserId" },
      { key := "parentId", value := .named "$TeamId" }],
    [{ key := "members", value := .listOf "$User", optional := true }]⟩

theorem introspect_reordered_sample :
    (∃ own : Model → List Document,
      (∀ m ∈ retained {} [sampleUser, samplePost],
        DocumentsOf {} [sampleUser, samplePost] m (own m)) ∧
      (∀ m ∈ retained {} [sampleTeam, samplePost, sampleUser],
        DocumentsOf {} [sampleTeam, samplePost, sampleUser] m (own m)) ∧
      [.model sampleUserDocument, .model samplePostDocument] =
        (retained {} [sampleUser, samplePost]).flatMap own ∧
      [.model sampleTeamDocument, .model samplePostDocument, .model sampleUserDocument] =
        (retained {} [sampleTeam, samplePost, sampleUser]).flatMap own) ∧
    ∃ documents, introspect {} [samplePost, sampleUser] = .ok documents := by
  have hteam : introspect {} [sampleTeam, samplePost, sampleUser] =
      .ok [.model sampleTeamDocument, .model samplePostDocument, .model sampleUserDocument] := by
    with_unfolding_all rfl
  constructor
  · exact ((introspect_reordered (by simp) (by decide +kernel) (by decide +kernel)).1 _ _
      introspect_sample hteam).1
  · exact ((introspect_reordered (by simp) (by decide +kernel) (by decide +kernel)).2
      (List.Perm.swap samplePost sampleUser [])).1 ⟨_, introspect_sample⟩

end Introspection

end ModelTypes
