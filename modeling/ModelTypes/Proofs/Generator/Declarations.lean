import Mathlib.Data.List.Perm.Basic
import ModelTypes.Proofs.Document.Reading
import ModelTypes.Proofs.Generator.Placement

/-!
# What the files of a run declare

Names are told apart before anything is rendered, as the texts that they are in the documents. What
counts is what is read from the files. It is the same if the names that are declared are identifiers
and the others bring no closing brace; then no type is declared twice.
-/

namespace ModelTypes

open Text (isIdentifier)

variable {d : Document} {documents : List Document} {file : SourceFile} {files : List SourceFile}
  {models : List Model} {s s' : Sandbox} {paths : List Path}

namespace Generator

def standard (config : Config) (style : Style) : Generator :=
  ⟨config, Template.builtin, Formatter.ofStyle style⟩

def Generates (g : Generator) (d : Document) (file : SourceFile) : Prop :=
  ∃ rendered, g.render d = .ok rendered ∧ SourceFile.parse rendered.contents.toList = .ok file

variable {g : Generator} {config : Config} {style : Style} {rendered : RenderedFile}

/-! ## Single documents -/

theorem of_render_standard (h : (standard config style).render d = .ok rendered) :
    ∃ raw file, (Template.builtin d.kind).renderDocument d = .ok raw ∧
      SourceFile.parse raw = .ok file ∧ SourceFile.parse rendered.contents.toList = .ok file := by
  unfold render at h
  obtain ⟨raw, hraw, h⟩ := except_bind_ok_iff.1 h
  obtain ⟨contents, hcontents, h⟩ := except_bind_ok_iff.1 h
  cases h
  have hcanonical := except_mapError_ok_iff.1 (except_mapError_ok_iff.1 hcontents)
  unfold canonicalize at hcanonical
  split at hcanonical
  · next file hparse =>
    cases hcanonical
    rw [String.toList_ofList] at hparse
    refine ⟨raw, file, except_mapError_ok_iff.1 hraw, hparse, ?_⟩
    rw [String.toList_ofList]
    exact SourceFile.parse_print style hparse
  · cases hcanonical

theorem generates_of_render (h : (standard config style).render d = .ok rendered) :
    ∃ file, (standard config style).Generates d file ∧ (d.Contained →
      (file.names = d.names ↔ ∀ name ∈ d.names, isIdentifier name.toList)) := by
  obtain ⟨raw, file, hraw, hparse, hread⟩ := of_render_standard h
  exact ⟨file, ⟨rendered, h, hread⟩, fun hcontained => names_of_parse hraw hcontained hparse⟩

/-! ## Runs that succeed -/

theorem failures_of_conclude {results : List (Document × Except DocumentFailure Path)}
    (h : conclude results = .ok paths) : failures results = [] := by
  unfold conclude at h
  split at h
  · assumption
  · cases h

theorem forall₂_ok {R : Document → Except DocumentFailure Path → Prop}
    (h : List.Forall₂ R documents results) (hnone : failures (documents.zip results) = []) :
    ∀ d ∈ documents, ∃ path, R d (.ok path) := by
  induction h with
  | nil => exact List.forall_mem_nil _
  | @cons d result documents results hfirst _ ih =>
    cases result with
    | error e => cases hnone
    | ok path => exact List.forall_mem_cons.2 ⟨⟨path, hfirst⟩, ih hnone⟩

theorem Outcome.rendered_of_ok (h : g.Outcome models s (.ok paths, s')) : ∃ documents,
    g.plan models = .ok documents ∧ ∀ d ∈ documents, ∃ file, g.render d = .ok file := by
  generalize hresult : (Except.ok paths, s') = outcome at h
  cases h with
  | failed hplan => cases hresult
  | @concluded documents s'' results hplan hrun =>
    obtain ⟨-, hgives⟩ := interleaving_gives hrun
    refine ⟨documents, hplan, fun d hd => ?_⟩
    have hnone := failures_of_conclude (Prod.mk.inj hresult).1.symm
    obtain ⟨path, hpath⟩ := forall₂_ok hgives hnone d hd
    obtain ⟨-, -, hrendered⟩ := hpath path rfl
    exact hrendered

theorem Outcome.written_of_ok (hplan : g.plan models = .ok documents) (hplain : g.Plain documents)
    (h : g.Outcome models s (.ok paths, s')) :
    (∀ d ∈ documents, g.Written s' d) ∧ paths = documents.map g.path := by
  have hs : Reached s.workingDirectory g.config.outputPath (g.files documents) s.tree s :=
    ⟨rfl, .refl⟩
  obtain ⟨⟨hbase, -⟩, results, hended, hresult⟩ := h.ended hplan hplain hs
  rw [← hbase] at hended
  exact (conclude_ok_iff hplain hended).1 hresult.symm

theorem names_perm (d : Document) : d.names.Perm d.declaredNames := by
  cases d with
  | model d =>
    rw [Document.names_model]
    exact List.perm_append_singleton _ _
  | enum d => exact .refl _

theorem nodup_names (hplan : g.plan models = .ok documents)
    (h : List.Forall₂ (fun d file => file.names = d.names) documents files) :
    (files.flatMap SourceFile.names).Nodup := by
  have hnames : files.flatMap SourceFile.names = documents.flatMap Document.names := by
    clear hplan
    induction h with
    | nil => rfl
    | cons hfirst _ ih => rw [List.flatMap_cons, List.flatMap_cons, hfirst, ih]
  have hperm : (documents.flatMap Document.names).Perm (documents.flatMap Document.declaredNames) :=
    List.Perm.flatMap_left _ fun d _ => names_perm d
  rw [hnames, hperm.nodup_iff]
  exact nodup_declaredNames hplan

theorem Generates.read (hwritten : g.Written s d) (h : g.Generates d file) :
    ∃ text, s.tree.read s.workingDirectory (g.path d) = .ok text ∧
      SourceFile.parse text.toList = .ok file := by
  obtain ⟨rendered, hrender, hread⟩ := hwritten
  obtain ⟨rendered', hrender', hparse⟩ := h
  cases hrender.symm.trans hrender'
  exact ⟨_, hread, hparse⟩

/-- A run that succeeds generates texts that are read as files. If the names that a document refers
to have no closing brace, its file declares its names if and only if these are identifiers, and if
all documents are so, no name is declared twice. Without slashes in the names of the files, they
hold the texts. -/
theorem run_declares (config : Config) (style : Style) (models : List Model) (s : Sandbox) :
    (standard config style).Outcome models s
      (((standard config style).run models : StateM Sandbox _) s) ∧
    ∀ paths s', (standard config style).Outcome models s (.ok paths, s') → ∃ documents files,
      (standard config style).plan models = .ok documents ∧
      List.Forall₂ (fun d file => (standard config style).Generates d file ∧ (d.Contained →
        (file.names = d.names ↔ ∀ name ∈ d.names, isIdentifier name.toList))) documents files ∧
      ((∀ d ∈ documents, d.Contained ∧ ∀ name ∈ d.names, isIdentifier name.toList) →
        (files.flatMap SourceFile.names).Nodup) ∧
      ((∀ d ∈ documents, '/' ∉ ((standard config style).fileName d).toList) →
        paths = documents.map (standard config style).path ∧
        List.Forall₂ (fun d file => ∃ text, s'.tree.read s'.workingDirectory
          ((standard config style).path d) = .ok text ∧ SourceFile.parse text.toList = .ok file)
          documents files) := by
  refine ⟨outcome_run _ models s, fun paths s' h => ?_⟩
  obtain ⟨documents, hplan, hrendered⟩ := h.rendered_of_ok
  have hread : ∀ d ∈ documents, ∃ file, (standard config style).Generates d file ∧ (d.Contained →
      (file.names = d.names ↔ ∀ name ∈ d.names, isIdentifier name.toList)) := by
    intro d hd
    obtain ⟨rendered, hrender⟩ := hrendered d hd
    exact generates_of_render hrender
  -- the file of each document is chosen once, since all parts are about the same files
  have : Nonempty SourceFile := ⟨⟨[], [], []⟩⟩
  choose! fileOf hfileOf using hread
  refine ⟨documents, documents.map fileOf, hplan, ?_, fun hall => ?_, fun hplain => ?_⟩
  · exact List.forall₂_map_right_iff.2 (List.forall₂_same.2 hfileOf)
  · refine nodup_names hplan (List.forall₂_map_right_iff.2 (List.forall₂_same.2 fun d hd => ?_))
    exact ((hfileOf d hd).2 (hall d hd).1).2 (hall d hd).2
  · obtain ⟨hwritten, hpaths⟩ := h.written_of_ok hplan hplain
    refine ⟨hpaths, List.forall₂_map_right_iff.2 (List.forall₂_same.2 fun d hd => ?_)⟩
    exact (hfileOf d hd).1.read (hwritten d hd)

theorem run_declares_sample :
    ∃ s' files, (builtin "out").Outcome enumModels {}
        (.ok ["out/enums/$UserStatus.js", "out/models/$User.js"], s') ∧
      List.Forall₂ (fun d file => ∃ text,
        s'.tree.read s'.workingDirectory ((builtin "out").path d) = .ok text ∧
          SourceFile.parse text.toList = .ok file) enumDocuments files ∧
      (files.flatMap SourceFile.names).Nodup := by
  let s' : Sandbox := (((builtin "out").run enumModels : StateM Sandbox _) {}).2
  have hplan : (builtin "out").plan enumModels = .ok enumDocuments := by decide +kernel
  have hresult : ((builtin "out").run enumModels : StateM Sandbox _) {} =
      (.ok ["out/enums/$UserStatus.js", "out/models/$User.js"], s') :=
    Prod.ext (by decide +kernel) rfl
  have hrun : (builtin "out").Outcome enumModels {} (_, s') := hresult ▸ outcome_run _ _ _
  obtain ⟨-, hdeclares⟩ := run_declares { outputPath := "out" } {} enumModels {}
  obtain ⟨documents, files, hplanned, -, hnodup, hread⟩ := hdeclares _ s' hrun
  cases hplan.symm.trans hplanned
  exact ⟨s', files, hrun, (hread (by decide +kernel)).2, hnodup (by decide +kernel)⟩

def namesAt (s : Sandbox) (path : Path) : Option (List String) := do
  let text ← (s.tree.read s.workingDirectory path).toOption
  let file ← (SourceFile.parse text.toList).toOption
  return file.names

def nestedSandbox : Sandbox :=
  { tree := (((FileTree.empty.insert ["out"] .directory).insert ["out", "models"] .directory).insert
      ["out", "models", "$User."] .directory).insert ["out", "models", "$Post."] .directory }

def blankModels : List Model :=
  [{ name := "user" }, { name := "user " }]

def closingModels : List Model :=
  [{ name := "user", declaredSingular := some "x |\x7d; declare type $User = \x7b| a: b" },
    { name := "post", associations := [⟨"author", "user", .belongsTo⟩] }]

def slashGenerator : Generator :=
  standard { outputPath := "out", fileExtension := "/../x" } {}

/-- Two names that are read alike are not told apart. A name that is referred to can end the type of
a model and declare others after it. With a slash in their names two documents can have one file. -/
theorem run_redeclares :
    (∃ s', (builtin "out").Outcome blankModels {}
        (.ok ["out/models/$User.js", "out/models/$User .js"], s') ∧
      namesAt s' "out/models/$User.js" = some ["$User"] ∧
      namesAt s' "out/models/$User .js" = some ["$User"]) ∧
    (∃ s', (builtin "out").Outcome closingModels {}
        (.ok ["out/models/$User.js", "out/models/$Post.js"], s') ∧
      namesAt s' "out/models/$User.js" = some ["$User"] ∧
      namesAt s' "out/models/$Post.js" = some ["$Post", "$User"]) ∧
    ∃ s', slashGenerator.Outcome sampleModels nestedSandbox
        (.ok ["out/models/$User./../x", "out/models/$Post./../x"], s') ∧
      namesAt s' "out/models/$User./../x" = some ["$Post"] := by
  refine ⟨exists_outcome ?_, exists_outcome ?_, exists_outcome ?_⟩ <;> decide +kernel

end Generator

end ModelTypes
