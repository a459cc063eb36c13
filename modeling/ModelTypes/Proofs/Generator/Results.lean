import ModelTypes.Proofs.Generator.Runs
import ModelTypes.Proofs.Generator.Setup

/-!
# What a run leaves behind

Nothing is written before the documents of a run are known. Then each document is written or is
reported as a failure, and besides the files of the written documents and the directories above them
the tree is what it was.
-/

namespace ModelTypes

open FileTree (OnTheWay names stem)

namespace Generator

def path (g : Generator) (d : Document) : Path :=
  Path.join (d.kind.directoryIn g.config.outputPath) (g.fileName d)

def Written (g : Generator) (s : Sandbox) (d : Document) : Prop :=
  ∃ file, g.render d = .ok file ∧
    s.tree.read s.workingDirectory (g.path d) = .ok file.contents

instance (g : Generator) (s : Sandbox) : DecidablePred (g.Written s) := fun d =>
  match h : g.render d with
  | .error _ => isFalse fun ⟨_, hrender, _⟩ => by cases h.symm.trans hrender
  | .ok file =>
    decidable_of_iff (s.tree.read s.workingDirectory (g.path d) = .ok file.contents)
      ⟨fun hread => ⟨file, h, hread⟩, fun ⟨_, hrender, hread⟩ => by
        cases h.symm.trans hrender
        exact hread⟩

/-- How a document fails: in rendering, in formatting, or at its file or the directory for it. -/
inductive Fails (g : Generator) (d : Document) : DocumentFailure → Prop
  | unrendered (h : g.render d = .error e) : Fails g d e
  | unwritten (h : g.render d = .ok file)
      (hblocked : blocked = d.kind.directoryIn g.config.outputPath ∨ blocked = g.path d) :
      Fails g d (.write blocked e)

/-- The result of a run and the tree that it leaves, for documents with single names. -/
structure Concluded (g : Generator) (documents : List Document) (s s' : Sandbox)
    (result : Except GenerateError (List Path)) : Prop where
  ok : ∀ paths, result = .ok paths ↔
    (∀ d ∈ documents, g.Written s' d) ∧ paths = documents.map g.path
  error : ∀ e, result = .error e → ∃ failed, e = .documents documents.length failed ∧
    List.Forall₂ (fun d x => x.document = d.typeName ∧ g.Fails d x.failure)
      (documents.filter (¬ g.Written s' ·)) failed
  /-- At the place of a document that is not rendered, what stood there stands there still. Where
  nothing stood, the others may need a directory, if the output path goes up. -/
  unrendered : ∀ d ∈ documents, ∀ e, g.render d = .error e → ∀ l,
    s'.tree.locate s.workingDirectory (g.path d) = .ok l → s'.tree.node? l = s.tree.node? l ∨
      s.tree.node? l = none ∧ s'.tree.node? l = some .directory ∧
        ".." ∈ names g.config.outputPath
  others : ∀ l, s'.tree.node? l = s.tree.node? l ∨
    s.tree.node? l = none ∧ s'.tree.node? l = some .directory ∧
      OnTheWay s.workingDirectory g.config.outputPath (g.files documents) s'.tree l ∨
    ∃ d ∈ documents, g.Written s' d ∧ s'.tree.locate s.workingDirectory (g.path d) = .ok l
  workingDirectory : s'.workingDirectory = s.workingDirectory

variable {g : Generator} {d : Document} {documents : List Document} {models : List Model}
  {file : RenderedFile} {base l : Location} {t u : FileTree} {s s' : Sandbox}

theorem path_of_render (h : g.render d = .ok file) :
    file.path g.config.outputPath = g.path d := by
  obtain ⟨hkind, hname⟩ := of_render h
  unfold RenderedFile.path path
  rw [hkind, hname]

/-! ## Results -/

theorem written_of_node (hrender : g.render d = .ok file) (hplain : file.Plain)
    (hlocate : s.tree.locate s.workingDirectory (file.path g.config.outputPath) = .ok l)
    (hnode : s.tree.node? l = some (.file (.text file.contents))) : g.Written s d := by
  rw [path_of_render hrender] at hlocate
  refine ⟨file, hrender, FileTree.read_ok_iff.2 ⟨l, hlocate, hnode, ?_⟩⟩
  rw [← path_of_render hrender]
  exact FileTree.endsInSlash_join hplain.1 hplain.2

theorem node_of_written (hrender : g.render d = .ok file) (h : g.Written s d) :
    ∃ l, s.tree.locate s.workingDirectory (file.path g.config.outputPath) = .ok l ∧
      s.tree.node? l = some (.file (.text file.contents)) := by
  obtain ⟨file', hrender', hread⟩ := h
  cases hrender.symm.trans hrender'
  obtain ⟨l, hlocate, hnode, -⟩ := FileTree.read_ok_iff.1 hread
  rw [path_of_render hrender]
  exact ⟨l, hlocate, hnode⟩

theorem Ended.written_or_fails (hplain : '/' ∉ (g.fileName d).toList)
    (h : Ended g s.workingDirectory t s.tree d result) :
    result = .ok (g.path d) ∧ g.Written s d ∨
      ∃ e, result = .error e ∧ ¬ g.Written s d ∧ g.Fails d e := by
  cases h with
  | @failed e hrender =>
    refine .inr ⟨e, rfl, ?_, .unrendered hrender⟩
    rintro ⟨file, hrender', -⟩
    cases hrender.symm.trans hrender'
  | @emitted file _ hrender hemitted =>
    have hfile := plain_of_render hrender hplain
    -- of the four ends only `written` leaves the text of the document in its place
    cases hemitted with
    | written hlocate hnode =>
      exact .inl ⟨by rw [path_of_render hrender], written_of_node hrender hfile hlocate hnode⟩
    | blocked hblocked =>
      refine .inr ⟨_, rfl, ?_, .unwritten hrender (.inl (by rw [(of_render hrender).1]))⟩
      intro hwritten
      obtain ⟨l, hlocate, -⟩ := node_of_written hrender hwritten
      exact hblocked.elim (FileTree.isDirectory_of_locate hfile hlocate)
    | refused _ hrefused =>
      refine .inr ⟨_, rfl, ?_, .unwritten hrender (.inr (path_of_render hrender))⟩
      intro hwritten
      obtain ⟨l, hlocate, -⟩ := node_of_written hrender hwritten
      cases hrefused.symm.trans hlocate
    | occupied hlocate hnode =>
      refine .inr ⟨_, rfl, ?_, .unwritten hrender (.inr (path_of_render hrender))⟩
      intro hwritten
      obtain ⟨l, hlocate', hnode'⟩ := node_of_written hrender hwritten
      cases hlocate.symm.trans hlocate'
      cases hnode.symm.trans hnode'

theorem failures_and_successes (hplain : g.Plain documents)
    (h : List.Forall₂ (Ended g s.workingDirectory t s.tree) documents results) :
    List.Forall₂ (fun d x => x.document = d.typeName ∧ g.Fails d x.failure)
        (documents.filter (¬ g.Written s ·)) (failures (documents.zip results)) ∧
      successes ((documents.zip results).map Prod.snd) =
        (documents.filter (g.Written s ·)).map g.path := by
  induction h with
  | nil => exact ⟨.nil, rfl⟩
  | @cons d result documents results hfirst _ ih =>
    obtain ⟨hplain, hplains⟩ := List.forall_mem_cons.1 hplain
    obtain ⟨hfailures, hsuccesses⟩ := ih hplains
    rcases hfirst.written_or_fails hplain with ⟨rfl, hwritten⟩ | ⟨e, rfl, hwritten, hfails⟩
    · rw [List.filter_cons_of_neg (by simpa using hwritten),
        List.filter_cons_of_pos (by simpa using hwritten), List.map_cons]
      exact ⟨hfailures, congrArg (g.path d :: ·) hsuccesses⟩
    · rw [List.filter_cons_of_pos (by simpa using hwritten),
        List.filter_cons_of_neg (by simpa using hwritten)]
      exact ⟨.cons ⟨rfl, hfails⟩ hfailures, hsuccesses⟩

theorem conclude_ok_iff (hplain : g.Plain documents)
    (h : List.Forall₂ (Ended g s.workingDirectory t s.tree) documents results) :
    conclude (documents.zip results) = .ok paths ↔
      (∀ d ∈ documents, g.Written s d) ∧ paths = documents.map g.path := by
  obtain ⟨hfailures, hsuccesses⟩ := failures_and_successes hplain h
  unfold conclude
  rw [hsuccesses]
  generalize failures (documents.zip results) = failed at hfailures
  by_cases hall : ∀ d ∈ documents, g.Written s d
  · have hnone : documents.filter (¬ g.Written s ·) = [] := by simpa using hall
    have hthose : documents.filter (g.Written s ·) = documents := by simpa using hall
    rw [hnone] at hfailures
    cases hfailures
    rw [hthose]
    constructor
    · rintro ⟨⟩
      exact ⟨hall, rfl⟩
    · rintro ⟨-, rfl⟩
      rfl
  · have hsome : documents.filter (¬ g.Written s ·) ≠ [] := by simpa using hall
    cases failed with
    | nil => exact absurd (List.forall₂_nil_right_iff.1 hfailures) hsome
    | cons x failed => simp [hall]

theorem conclude_error (hplain : g.Plain documents)
    (h : List.Forall₂ (Ended g s.workingDirectory t s.tree) documents results)
    (herror : conclude (documents.zip results) = .error e) :
    ∃ failed, e = .documents documents.length failed ∧
      List.Forall₂ (fun d x => x.document = d.typeName ∧ g.Fails d x.failure)
        (documents.filter (¬ g.Written s ·)) failed := by
  refine ⟨failures (documents.zip results), ?_, (failures_and_successes hplain h).1⟩
  have hlength : (documents.zip results).length = documents.length := by
    rw [List.length_zip, ← h.length_eq, Nat.min_self]
  unfold conclude at herror
  rw [hlength] at herror
  split at herror
  · cases herror
  · cases herror
    rfl

/-! ## The tree -/

theorem node?_unless_written (hseparate : Separate (g.files documents)) (hplain : g.Plain documents)
    (hu : FileTree.Evolves s.workingDirectory g.config.outputPath (g.files documents) t s.tree)
    (hended : List.Forall₂ (Ended g s.workingDirectory t s.tree) documents results)
    (l : Location) : s.tree.node? l = t.node? l ∨
      t.node? l = none ∧ s.tree.node? l = some .directory ∧
        OnTheWay s.workingDirectory g.config.outputPath (g.files documents) s.tree l ∨
      ∃ d ∈ documents, g.Written s d ∧ s.tree.locate s.workingDirectory (g.path d) = .ok l := by
  -- a directory that is new is on the way to a file, and a file that is new is one of them
  rcases hl : s.tree.node? l with _ | _ | c
  · exact .inl (hu.grows.node?_eq_none hl).symm
  · rcases hu.of_directory hl with hold | ⟨hnone, hway⟩
    · exact .inl hold.symm
    · exact .inr (.inl ⟨hnone, rfl, hway⟩)
  · rcases hu.of_file hl with hold | ⟨file, hfile, -, hlocate⟩
    · exact .inl hold.symm
    · refine .inr (.inr ?_)
      obtain ⟨d, hd, hrender⟩ := mem_files_iff.1 hfile
      have hnode := FileTree.file_of_settled hseparate hu.grows (.refl _) hu
        (settled_of_ended hended) hfile hlocate (by simp [hl])
      refine ⟨d, hd, ?_, path_of_render hrender ▸ hlocate⟩
      exact written_of_node hrender (plain_of_render hrender (hplain d hd)) hlocate hnode

theorem node?_of_unrendered (hplan : g.plan models = .ok documents) (hplain : g.Plain documents)
    (hd : d ∈ documents) (hdot : g.fileName d ≠ ".") (hup : g.fileName d ≠ "..")
    (hrender : g.render d = .error e)
    (hu : FileTree.Evolves s.workingDirectory g.config.outputPath (g.files documents) t s.tree)
    (hended : List.Forall₂ (Ended g s.workingDirectory t s.tree) documents results)
    (hlocate : s.tree.locate s.workingDirectory (g.path d) = .ok l) :
    s.tree.node? l = t.node? l ∨ t.node? l = none ∧ s.tree.node? l = some .directory ∧
      ".." ∈ names g.config.outputPath := by
  have hplace : RenderedFile.Plain ⟨d.kind, g.fileName d, ""⟩ := by
    refine ⟨hplain d hd, ?_⟩
    show g.fileName d ≠ ""
    unfold fileName
    simp
  rcases node?_unless_written (separate_files hplan hplain) hplain hu hended l with
    hsame | ⟨hnone, hdirectory, hway⟩ | ⟨d', hd', hwritten, hlocate'⟩
  · exact .inl hsame
  · refine .inr ⟨hnone, hdirectory, ?_⟩
    by_contra hroot
    exact hway.ne_of_plain hplace hdot hup (FileTree.not_mem_stem hroot) hlocate rfl
  · -- the place of another document is another place
    obtain ⟨file, hrender', hread⟩ := hwritten
    obtain ⟨l', hl', hnode⟩ := node_of_written hrender' ⟨file, hrender', hread⟩
    rw [path_of_render hrender'] at hl'
    cases hlocate'.symm.trans hl'
    have hname : g.fileName d = file.fileName :=
      FileTree.fileName_eq_of_locate hplace (plain_of_render hrender' (hplain d' hd')) hlocate
        (path_of_render hrender' ▸ hlocate') (by simp [hnode])
    rw [(of_render hrender').2] at hname
    cases List.inj_on_of_nodup_map (nodup_typeNames hplan) hd hd' (fileName_inj hname)
    cases hrender.symm.trans hrender'

theorem Outcome.concluded_of_plan (hplan : g.plan models = .ok documents)
    (hnames : ∀ d ∈ documents, '/' ∉ (g.fileName d).toList ∧ g.fileName d ≠ "." ∧
      g.fileName d ≠ "..") (h : g.Outcome models s (result, s')) :
    g.Concluded documents s s' result := by
  have hplain : g.Plain documents := fun d hd => (hnames d hd).1
  have hs : Reached s.workingDirectory g.config.outputPath (g.files documents) s.tree s :=
    ⟨rfl, .refl⟩
  obtain ⟨⟨hbase, htree⟩, results, hended, rfl⟩ := h.ended hplan hplain hs
  rw [← hbase] at htree hended
  refine ⟨fun _ => conclude_ok_iff hplain hended, fun _ => conclude_error hplain hended, ?_, ?_,
    hbase⟩
  · intro d hd e hrender l hlocate
    rw [← hbase] at hlocate
    obtain ⟨-, hdot, hup⟩ := hnames d hd
    exact node?_of_unrendered hplan hplain hd hdot hup hrender htree hended hlocate
  · intro l
    rw [← hbase]
    exact node?_unless_written (separate_files hplan hplain) hplain htree hended l

theorem Outcome.of_plan_error (hplan : g.plan models = .error e)
    (h : g.Outcome models s (result, s')) : result = .error e ∧ s' = s := by
  cases h with
  | failed hplan' =>
    cases hplan.symm.trans hplan'
    exact ⟨rfl, rfl⟩
  | concluded hplan' => cases hplan.symm.trans hplan'

end Generator

/-! ## Generation -/

variable {config : Config} {models : List Model} {g : Generator}

theorem generate_eq (hmodels : models ≠ []) (config : Config) (s : Sandbox) :
    (generate (some ⟨models⟩) config : StateM Sandbox _) s =
      match (Generator.ofConfig config : StateM Sandbox _) s with
      | (.error e, s') => (.error e, s')
      | (.ok g, s') => (((g.run models : StateM Sandbox _) s').1.map fun _ => (),
          ((g.run models : StateM Sandbox _) s').2) := by
  cases models with
  | nil => exact absurd rfl hmodels
  | cons m models =>
    unfold generate
    simp only [ExceptT.run, bind, ExceptT.bind, ExceptT.mk, StateT.bind]
    rcases (Generator.ofConfig config : StateM Sandbox _) s with ⟨e | g, s'⟩
    · rfl
    · simp only [ExceptT.bindCont, bind, StateT.bind]
      rcases (g.run (m :: models) : StateM Sandbox _) s' with ⟨e | paths, s''⟩
      · rfl
      · rfl

/-- Without models, or if the setup or the introspection fails, nothing changes. Otherwise a run
writes documents and fails for the others, however they are interleaved: it succeeds if and only if
all are written, and then its paths are theirs; else its failures are those of the documents that
are not written, in their order. Besides, only directories are new. -/
theorem generate_outcome (config : Config) (s : Sandbox) :
    (generate none config : StateM Sandbox _) s = (.ok (), s) ∧
    (generate (some ⟨[]⟩) config : StateM Sandbox _) s = (.ok (), s) ∧
    (∀ models, models ≠ [] →
      (∀ e, ((Generator.ofConfig config : StateM Sandbox _) s).1 = .error e →
        (generate (some ⟨models⟩) config : StateM Sandbox _) s = (.error e, s)) ∧
      ∀ g, ((Generator.ofConfig config : StateM Sandbox _) s).1 = .ok g →
        (generate (some ⟨models⟩) config : StateM Sandbox _) s =
          (((g.run models : StateM Sandbox _) s).1.map fun _ => (),
            ((g.run models : StateM Sandbox _) s).2)) ∧
    ∀ (g : Generator) models, g.Outcome models s ((g.run models : StateM Sandbox _) s) ∧
      (∀ e, g.plan models = .error e → ∀ result s', g.Outcome models s (result, s') →
        result = .error e ∧ s' = s) ∧
      ∀ documents, g.plan models = .ok documents →
        (∀ d ∈ documents, '/' ∉ (g.fileName d).toList ∧ g.fileName d ≠ "." ∧
          g.fileName d ≠ "..") →
        ∀ result s', g.Outcome models s (result, s') → g.Concluded documents s s' result := by
  have hsame := Generator.reads_ofConfig config s
  refine ⟨rfl, rfl, fun models hmodels => ⟨fun e he => ?_, fun g hg => ?_⟩, fun g models =>
    ⟨Generator.outcome_run g models s, fun e he result s' h => h.of_plan_error he,
      fun documents hplan hnames result s' h => h.concluded_of_plan hplan hnames⟩⟩
  · have hsetup : (Generator.ofConfig config : StateM Sandbox _) s = (.error e, s) :=
      Prod.ext he hsame
    rw [generate_eq hmodels, hsetup]
  · have hsetup : (Generator.ofConfig config : StateM Sandbox _) s = (.ok g, s) :=
      Prod.ext hg hsame
    rw [generate_eq hmodels, hsetup]

def enumModels : List Model :=
  [{ name := "user"
     attributes := [{ name := "status", domain := .enumerated, values := ["active"] }] }]

def enumDocuments : List Document :=
  [.enum ⟨"UserStatus", "$", ["active"]⟩,
    .model ⟨"User", "$", [], [{ key := "status", value := .named "$UserStatus" }], []⟩]

def blockedSandbox : Sandbox :=
  { tree := (FileTree.empty.insert ["out"] .directory).insert ["out", "enums"] (.file (.text "")) }

theorem generate_outcome_blocked :
    (((Generator.builtin "out").run enumModels : StateM Sandbox _) blockedSandbox).1 =
      .error (.documents 2 [⟨"$UserStatus", .write "out/enums" .alreadyExists⟩]) ∧
    (Generator.builtin "out").Concluded enumDocuments blockedSandbox
      (((Generator.builtin "out").run enumModels : StateM Sandbox _) blockedSandbox).2
      (((Generator.builtin "out").run enumModels : StateM Sandbox _) blockedSandbox).1 := by
  obtain ⟨-, -, -, hgenerator⟩ := generate_outcome {} blockedSandbox
  obtain ⟨houtcome, -, hconcluded⟩ := hgenerator (Generator.builtin "out") enumModels
  exact ⟨by decide +kernel, hconcluded enumDocuments (by decide +kernel) (by decide +kernel) _ _
    houtcome⟩

end ModelTypes
