import Mathlib.Data.List.Nodup
import ModelTypes.Proofs.Generator.Emission
import ModelTypes.Proofs.Introspection.Failures

/-!
# Runs

In a run the documents are tasks of their own. However their calls are interleaved, the tree at the
end has come from the one at the beginning, and every document has got the result that it bears out.
-/

namespace ModelTypes

namespace Generator

def builtin (outputPath : Path) : Generator :=
  ⟨{ outputPath }, Template.builtin, Formatter.ofStyle {}⟩

/-- What has become of a document in a tree that was `t` and is `u` now. -/
inductive Ended (g : Generator) (base : Location) (t u : FileTree) (d : Document) :
    Except DocumentFailure Path → Prop
  | failed (h : g.render d = .error e) : Ended g base t u d (.error e)
  | emitted (h : g.render d = .ok file)
      (hemitted : FileTree.Emitted base g.config.outputPath t u file result) :
      Ended g base t u d result

def announce (g : Generator) (s : Sandbox) : Except GenerateError (List Path) → Sandbox
  | .ok paths => (Call.perform s (.report ("generation complete count=" ++ toString paths.length ++
      " output=" ++ g.config.outputPath))).2
  | .error _ => s

/-- The outcomes of a run whose documents are processed in parallel, their calls interleaved. -/
inductive Outcome (g : Generator) (models : List Model) (s : Sandbox) :
    Except GenerateError (List Path) × Sandbox → Prop
  | failed (h : g.plan models = .error e) : Outcome g models s (.error e, s)
  | concluded (h : g.plan models = .ok documents)
      (hrun : Task.Interleaving s (documents.map g.process) s' results) :
      Outcome g models s (conclude (documents.zip results),
        g.announce s' (conclude (documents.zip results)))

variable {g : Generator} {d : Document} {documents : List Document} {models : List Model}
  {file : RenderedFile} {base : Location} {t u : FileTree} {s s' : Sandbox}

/-! ## Documents and their files -/

theorem except_mapError_ok_iff {x : Except ε α} {f : ε → ε'} : x.mapError f = .ok a ↔ x = .ok a := by
  cases x <;> simp [Except.mapError]

theorem plan_ok_iff :
    g.plan models = .ok documents ↔ introspect g.config models = .ok documents :=
  except_mapError_ok_iff

theorem typeNames_sublist : (documents.map Document.typeName).Sublist
    (documents.flatMap Document.declaredNames) := by
  induction documents with
  | nil => exact .slnil
  | cons d documents ih =>
    rw [List.map_cons, List.flatMap_cons]
    exact .cons_cons _ (ih.trans (List.sublist_append_right _ _))

theorem nodup_declaredNames (h : g.plan models = .ok documents) :
    (documents.flatMap Document.declaredNames).Nodup :=
  Introspection.nodup_declaredNames (plan_ok_iff.1 h)

theorem nodup_typeNames (h : g.plan models = .ok documents) :
    (documents.map Document.typeName).Nodup :=
  (nodup_declaredNames h).sublist typeNames_sublist

def files (g : Generator) (documents : List Document) : List RenderedFile :=
  documents.filterMap fun d => (g.render d).toOption

theorem mem_files_iff : file ∈ g.files documents ↔ ∃ d ∈ documents, g.render d = .ok file := by
  unfold files
  rw [List.mem_filterMap]
  refine exists_congr fun d => and_congr_right fun _ => ?_
  cases g.render d <;> simp [Except.toOption]

theorem of_render (h : g.render d = .ok file) :
    file.kind = d.kind ∧ file.fileName = g.fileName d := by
  unfold render at h
  obtain ⟨raw, -, h⟩ := except_bind_ok_iff.1 h
  obtain ⟨contents, -, h⟩ := except_bind_ok_iff.1 h
  cases h
  exact ⟨rfl, rfl⟩

theorem fileName_inj {d' : Document} (h : g.fileName d = g.fileName d') :
    d.typeName = d'.typeName := by
  unfold fileName at h
  simpa using h

/-- The documents have single names as file names. -/
def Plain (g : Generator) (documents : List Document) : Prop :=
  ∀ d ∈ documents, '/' ∉ (g.fileName d).toList

theorem plain_of_render (h : g.render d = .ok file) (hplain : '/' ∉ (g.fileName d).toList) :
    file.Plain := by
  refine ⟨(of_render h).2 ▸ hplain, ?_⟩
  rw [(of_render h).2]
  unfold fileName
  simp

theorem separate_files (hplan : g.plan models = .ok documents) (hplain : g.Plain documents) :
    Separate (g.files documents) := by
  constructor
  · intro file hfile
    obtain ⟨d, hd, hrender⟩ := mem_files_iff.1 hfile
    exact plain_of_render hrender (hplain d hd)
  · intro file hfile other hother heq
    obtain ⟨d, hd, hrender⟩ := mem_files_iff.1 hfile
    obtain ⟨d', hd', hrender'⟩ := mem_files_iff.1 hother
    rw [(of_render hrender).2, (of_render hrender').2] at heq
    cases List.inj_on_of_nodup_map (nodup_typeNames hplan) hd hd' (fileName_inj heq)
    cases hrender.symm.trans hrender'
    rfl

/-! ## Tasks -/

theorem process_always (hseparate : Separate (g.files documents)) (hd : d ∈ documents)
    (hs : Reached base g.config.outputPath (g.files documents) t s) :
    Task.Always (Sandbox.Evolves g.config.outputPath (g.files documents))
      (fun result s => Reached base g.config.outputPath (g.files documents) t s ∧
        Ended g base t s.tree d result) (g.process d) s := by
  unfold process
  cases hrender : g.render d with
  | error e =>
    intro s' hs'
    exact ⟨hs.evolves hs', .failed hrender⟩
  | ok file =>
    have hemits := emits hseparate (mem_files_iff.2 ⟨d, hd, hrender⟩) hs
    refine Task.Always.imp hemits ?_
    rintro result s' ⟨hs', hemitted⟩
    exact ⟨hs', .emitted hrender hemitted⟩

theorem interleaving_ended (hseparate : Separate (g.files documents))
    (hs : Reached base g.config.outputPath (g.files documents) t s)
    (hrun : Task.Interleaving s (documents.map g.process) s' results) :
    Reached base g.config.outputPath (g.files documents) t s' ∧
      List.Forall₂ (Ended g base t s'.tree) documents results := by
  have htasks : List.Forall₂ (fun d x => Task.Always
      (Sandbox.Evolves g.config.outputPath (g.files documents))
      (fun result s => Reached base g.config.outputPath (g.files documents) t s ∧
        Ended g base t s.tree d result) x s) documents (documents.map g.process) :=
    List.forall₂_map_right_iff.2 (List.forall₂_same.2 fun d hd => process_always hseparate hd hs)
  obtain ⟨hevolves, hended⟩ := Task.Always.interleaving Sandbox.Evolves.refl Sandbox.Evolves.trans
    htasks hrun
  exact ⟨hs.evolves hevolves, hended.imp fun _ _ h => h.2⟩

theorem settled_of_ended (h : List.Forall₂ (Ended g base t u) documents results) :
    FileTree.Settled base g.config.outputPath (g.files documents) t u := by
  intro file hfile
  obtain ⟨d, hd, hrender⟩ := mem_files_iff.1 hfile
  obtain ⟨result, -, hended⟩ := forall₂_of_mem_left h hd
  cases hended with
  | failed herror => cases hrender.symm.trans herror
  | emitted hok hemitted =>
    cases hrender.symm.trans hok
    exact ⟨result, hemitted⟩

/-! ## The run of the documents one after another -/

theorem agrees_emit (file : RenderedFile) (root : Path) :
    Task.Agrees (file.emit root) (file.emit root) := by
  unfold RenderedFile.emit
  refine (Task.agrees_createDirectories _).bind fun result => ?_
  cases result with
  | error e => exact Task.agrees_pure _
  | ok _ =>
    refine (Task.agrees_report _).bind fun _ => (Task.agrees_write _ _).bind fun result => ?_
    cases result with
    | error e => exact Task.agrees_pure _
    | ok _ => exact Task.agrees_pure _

theorem agrees_process (g : Generator) (d : Document) :
    Task.Agrees (g.process d) (g.process d) := by
  unfold process
  cases g.render d with
  | error e => exact Task.agrees_pure _
  | ok file => exact agrees_emit file g.config.outputPath

theorem run_bind_apply {α β : Type} (x : StateM Sandbox α) (f : α → StateM Sandbox β)
    (s : Sandbox) : (x >>= f) s = f (x s).1 (x s).2 := rfl

theorem mapM_pair {α β : Type} (f : α → StateM Sandbox β) (l : List α) (s : Sandbox) :
    (l.mapM fun a => return (a, ← f a) : StateM Sandbox _) s =
      (l.zip (l.mapM f s).1, (l.mapM f s).2) := by
  induction l generalizing s with
  | nil => rfl
  | cons a l ih =>
    rw [List.mapM_cons, List.mapM_cons]
    exact congrArg (fun p => ((a, (f a s).1) :: p.1, p.2)) (ih (f a s).2)

def processAll (g : Generator) (documents : List Document) :
    StateM Sandbox (List (Except DocumentFailure Path)) :=
  documents.mapM g.process

theorem run_of_plan (h : g.plan models = .ok documents) (s : Sandbox) :
    (g.run models : StateM Sandbox _) s =
      (conclude (documents.zip (g.processAll documents s).1),
        g.announce (g.processAll documents s).2
          (conclude (documents.zip (g.processAll documents s).1))) := by
  have hpair : (documents.mapM fun d => return (d, ← g.process d) : StateM Sandbox _) s =
      (documents.zip (g.processAll documents s).1, (g.processAll documents s).2) :=
    mapM_pair g.process documents s
  unfold run
  simp only [h]
  rw [run_bind_apply, hpair]
  dsimp only
  cases conclude (documents.zip (g.processAll documents s).1) with
  | ok paths => rfl
  | error e => rfl

theorem outcome_run (g : Generator) (models : List Model) (s : Sandbox) :
    g.Outcome models s ((g.run models : StateM Sandbox _) s) := by
  cases hplan : g.plan models with
  | error e =>
    have hrun : (g.run models : StateM Sandbox _) s = (.error e, s) := by
      rw [run, hplan]
      rfl
    rw [hrun]
    exact .failed hplan
  | ok documents =>
    rw [run_of_plan hplan]
    exact .concluded hplan (Task.interleaving_mapM (fun d => agrees_process g d) documents s)

theorem exists_outcome {P : Sandbox → Prop}
    (h : ((g.run models : StateM Sandbox _) s).1 = result ∧
      P ((g.run models : StateM Sandbox _) s).2) :
    ∃ s', g.Outcome models s (result, s') ∧ P s' := by
  obtain ⟨rfl, hP⟩ := h
  exact ⟨_, outcome_run g models s, hP⟩

theorem announce_tree (g : Generator) (s : Sandbox) (result : Except GenerateError (List Path)) :
    (g.announce s result).tree = s.tree ∧
      (g.announce s result).workingDirectory = s.workingDirectory := by
  cases result <;> exact ⟨rfl, rfl⟩

theorem Outcome.ended (hplan : g.plan models = .ok documents) (hplain : g.Plain documents)
    (hs : Reached base g.config.outputPath (g.files documents) t s)
    (h : g.Outcome models s (result, s')) :
    Reached base g.config.outputPath (g.files documents) t s' ∧ ∃ results,
      List.Forall₂ (Ended g base t s'.tree) documents results ∧
        result = conclude (documents.zip results) := by
  cases h with
  | failed herror => cases hplan.symm.trans herror
  | @concluded documents' s' results hplan' hrun =>
    cases hplan.symm.trans hplan'
    obtain ⟨hs', hended⟩ := interleaving_ended (separate_files hplan hplain) hs hrun
    obtain ⟨htree, hbase⟩ := announce_tree g s' (conclude (documents.zip results))
    refine ⟨⟨hbase.trans hs'.workingDirectory, htree ▸ hs'.tree⟩, results, ?_, rfl⟩
    rw [htree]
    exact hended

end Generator

end ModelTypes
