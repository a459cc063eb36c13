import ModelTypes.Proofs.Generator.Runs

/-!
# The order of the documents

The documents of a run may be processed one after another or in parallel, and the run may be
repeated: the tree at the end is the same. So are the results, but for how a file in the way of a
directory is reported. It is found above the directory or where the directory should be, depending
on whether the directories before it were there already, which they can be only if the output path
goes up.
-/

namespace ModelTypes

open FileTree (Late Obstruction Settled)

/-- Failures of a document that differ at most in the report of a file in the way of a directory. -/
structure FailedDocument.Alike (root : Path) (x y : FailedDocument) : Prop where
  document : x.document = y.document
  failure : x.failure = y.failure ∨ ∃ (kind : DocumentKind) (e e' : FileError),
    Obstruction e ∧ Obstruction e' ∧ x.failure = .write (kind.directoryIn root) e ∧
      y.failure = .write (kind.directoryIn root) e'

namespace Generator

/-- Results of a run that differ at most in the report of files in the way of directories. -/
inductive Alike (root : Path) :
    Except GenerateError (List Path) → Except GenerateError (List Path) → Prop
  | same (result) : Alike root result result
  | documents (h : List.Forall₂ (FailedDocument.Alike root) failed failed') :
      Alike root (.error (.documents total failed)) (.error (.documents total failed'))

variable {g : Generator} {d : Document} {documents : List Document} {models : List Model}
  {base : Location} {t u : FileTree} {s s' : Sandbox}

theorem Ended.unique (hplain : '/' ∉ (g.fileName d).toList) (h : Ended g base t u d result)
    (h' : Ended g base t u d result') : result = result' ∨
      Late base t u (d.kind.directoryIn g.config.outputPath) ∧ ∃ e e',
        Obstruction e ∧ Obstruction e' ∧
        result = .error (.write (d.kind.directoryIn g.config.outputPath) e) ∧
        result' = .error (.write (d.kind.directoryIn g.config.outputPath) e') := by
  cases h with
  | failed herror =>
    cases h' with
    | failed herror' =>
      cases herror.symm.trans herror'
      exact .inl rfl
    | emitted hok => cases herror.symm.trans hok
  | emitted hok hemitted =>
    cases h' with
    | failed herror => cases hok.symm.trans herror
    | emitted hok' hemitted' =>
      cases hok.symm.trans hok'
      rw [← (of_render hok).1]
      exact hemitted.unique (plain_of_render hok hplain) hemitted'

theorem lists_alike (hplain : g.Plain documents)
    (h : List.Forall₂ (Ended g base t u) documents results)
    (h' : List.Forall₂ (Ended g base t u) documents results') :
    List.Forall₂ (FailedDocument.Alike g.config.outputPath) (failures (documents.zip results))
        (failures (documents.zip results')) ∧
      successes ((documents.zip results).map Prod.snd) =
        successes ((documents.zip results').map Prod.snd) := by
  induction h generalizing results' with
  | nil =>
    cases h'
    exact ⟨.nil, rfl⟩
  | @cons d result documents results hfirst _ ih =>
    cases h' with
    | @cons _ result' _ results' hfirst' hrest' =>
      obtain ⟨hplain, hplains⟩ := List.forall_mem_cons.1 hplain
      obtain ⟨hfailures, hsuccesses⟩ := ih hplains hrest'
      -- two runs end alike for the first document, or both fail for it in its directory
      rcases hfirst.unique hplain hfirst' with rfl | ⟨-, e, e', he, he', rfl, rfl⟩
      · cases result with
        | ok path => exact ⟨hfailures, congrArg (path :: ·) hsuccesses⟩
        | error e => exact ⟨.cons ⟨rfl, .inl rfl⟩ hfailures, hsuccesses⟩
      · exact ⟨.cons ⟨rfl, .inr ⟨d.kind, e, e', he, he', rfl, rfl⟩⟩ hfailures, hsuccesses⟩

theorem conclude_alike (hplain : g.Plain documents)
    (h : List.Forall₂ (Ended g base t u) documents results)
    (h' : List.Forall₂ (Ended g base t u) documents results') :
    Alike g.config.outputPath (conclude (documents.zip results))
      (conclude (documents.zip results')) := by
  obtain ⟨hfailures, hsuccesses⟩ := lists_alike hplain h h'
  have hlength : (documents.zip results).length = (documents.zip results').length := by
    rw [List.length_zip, List.length_zip, ← h.length_eq, ← h'.length_eq]
  unfold conclude
  rw [hsuccesses, hlength]
  generalize failures (documents.zip results) = failed at hfailures
  generalize failures (documents.zip results') = failed' at hfailures
  cases hfailures with
  | nil => exact .same _
  | cons hfirst hrest => exact .documents (.cons hfirst hrest)

theorem results_eq (hplain : g.Plain documents)
    (hlate : ∀ kind : DocumentKind, ¬ Late base t u (kind.directoryIn g.config.outputPath))
    (h : List.Forall₂ (Ended g base t u) documents results)
    (h' : List.Forall₂ (Ended g base t u) documents results') : results = results' := by
  induction h generalizing results' with
  | nil =>
    cases h'
    rfl
  | cons hfirst _ ih =>
    cases h' with
    | cons hfirst' hrest' =>
      obtain ⟨hplain, hplains⟩ := List.forall_mem_cons.1 hplain
      rw [ih hplains hrest']
      rcases hfirst.unique hplain hfirst' with rfl | ⟨hlate', -⟩
      · rfl
      · exact absurd hlate' (hlate _)

theorem Outcome.agree (hplan : g.plan models = .ok documents) (hplain : g.Plain documents)
    (hs : Reached base g.config.outputPath (g.files documents) t s)
    (hs' : Reached base g.config.outputPath (g.files documents) t s')
    (h : g.Outcome models s (result, r)) (h' : g.Outcome models s' (result', r')) :
    r.tree = r'.tree ∧ Alike g.config.outputPath result result' ∧
      (t.WellFormed → ".." ∉ FileTree.names g.config.outputPath → result = result') := by
  have hseparate := separate_files hplan hplain
  obtain ⟨hr, results, hended, rfl⟩ := h.ended hplan hplain hs
  obtain ⟨hr', results', hended', rfl⟩ := h'.ended hplan hplain hs'
  have htree : r.tree = r'.tree := FileTree.eq_of_settled hseparate hr.tree hr'.tree
    (settled_of_ended hended) (settled_of_ended hended')
  rw [← htree] at hended'
  refine ⟨htree, conclude_alike hplain hended hended', ?_⟩
  intro hwell hroot
  have hlate (kind : DocumentKind) := @FileTree.not_late base g.config.outputPath _ _ _ kind
    hseparate hwell (FileTree.not_mem_stem hroot) hr.tree
  rw [results_eq hplain hlate hended hended']

/-- However the documents of a run are interleaved, its tree is that of the run that processes them
one after another, and so is its result, but for the report of files in the way of directories. When
it is repeated, the tree stays as it is. In a well-formed tree the results are equal, unless the
output path goes up. -/
theorem run_interleaved (g : Generator) (models : List Model) (s : Sandbox)
    (hplan : g.plan models = .ok documents)
    (hplain : ∀ d ∈ documents, '/' ∉ (g.fileName d).toList) :
    g.Outcome models s ((g.run models : StateM Sandbox _) s) ∧
    ∀ result s', g.Outcome models s (result, s') →
      (s'.tree = ((g.run models : StateM Sandbox _) s).2.tree ∧
        Alike g.config.outputPath result ((g.run models : StateM Sandbox _) s).1 ∧
        (s.tree.WellFormed → ".." ∉ FileTree.names g.config.outputPath →
          result = ((g.run models : StateM Sandbox _) s).1)) ∧
      ∀ result' s'', g.Outcome models s' (result', s'') →
        s''.tree = s'.tree ∧ Alike g.config.outputPath result' result ∧
          (s.tree.WellFormed → ".." ∉ FileTree.names g.config.outputPath → result' = result) := by
  have hs : Reached s.workingDirectory g.config.outputPath (g.files documents) s.tree s :=
    ⟨rfl, .refl⟩
  have hrun := outcome_run g models s
  refine ⟨hrun, fun result s' h => ⟨h.agree hplan hplain hs hs hrun, fun result' s'' h' => ?_⟩⟩
  obtain ⟨hs', -⟩ := h.ended hplan hplain hs
  exact h'.agree hplan hplain hs' hs h

def sampleModels : List Model :=
  [{ name := "user" }, { name := "post" }]

def sampleDocuments : List Document :=
  [.model ⟨"User", "$", [], [], []⟩, .model ⟨"Post", "$", [], [], []⟩]

theorem run_interleaved_sample :
    ((builtin "out").plan sampleModels = .ok sampleDocuments ∧
      ∀ d ∈ sampleDocuments, '/' ∉ ((builtin "out").fileName d).toList) ∧
    ∀ result s', (builtin "out").Outcome sampleModels {} (result, s') →
      result = .ok ["out/models/$User.js", "out/models/$Post.js"] ∧
        s'.tree.read [] "out/models/$Post.js" =
          .ok "// @flow\n\ndeclare type $Post = {||};\n" := by
  have hplan : (builtin "out").plan sampleModels = .ok sampleDocuments := by decide +kernel
  have hplain : ∀ d ∈ sampleDocuments, '/' ∉ ((builtin "out").fileName d).toList := by
    decide +kernel
  refine ⟨⟨hplan, hplain⟩, fun result s' h => ?_⟩
  obtain ⟨htree, -, hresult⟩ := ((run_interleaved _ _ {} hplan hplain).2 result s' h).1
  rw [hresult FileTree.wellFormed_empty (by decide +kernel), htree]
  exact ⟨by decide +kernel, by decide +kernel⟩

/-- A generator whose output path leads to a file, up from a directory that is missing. -/
def upGenerator : Generator :=
  builtin "missing/../f"

def fileSandbox : Sandbox :=
  { tree := FileTree.empty.insert ["f"] (.file (.text "")) }

/-- Whoever comes first makes the directory that is missing, and is told that the file exists. The
others, and a second run, find the file above the directory that they want. -/
theorem run_depends_on_order :
    (upGenerator.plan sampleModels = .ok sampleDocuments ∧ ∀ d ∈ sampleDocuments,
      '/' ∉ (upGenerator.fileName d).toList ∧ '\x00' ∉ (upGenerator.fileName d).toList) ∧
    (∃ result s', upGenerator.Outcome sampleModels fileSandbox (result, s') ∧
      result ≠ ((upGenerator.run sampleModels : StateM Sandbox _) fileSandbox).1) ∧
    ((upGenerator.run sampleModels : StateM Sandbox _)
        ((upGenerator.run sampleModels : StateM Sandbox _) fileSandbox).2).1 ≠
      ((upGenerator.run sampleModels : StateM Sandbox _) fileSandbox).1 := by
  have hplan : upGenerator.plan sampleModels = .ok sampleDocuments := by decide +kernel
  refine ⟨⟨hplan, by decide +kernel⟩, ?_, by decide +kernel⟩
  -- the second document runs to its end before the first
  let user : Task (Except DocumentFailure Path) :=
    upGenerator.process (.model ⟨"User", "$", [], [], []⟩)
  let post : Task (Except DocumentFailure Path) :=
    upGenerator.process (.model ⟨"Post", "$", [], [], []⟩)
  have hpost := Task.steps_run post fileSandbox [user] []
  have huser := Task.steps_run user (post.run fileSandbox).2 [] [.done (post.run fileSandbox).1]
  have hrun : Task.Interleaving fileSandbox (sampleDocuments.map upGenerator.process)
      (user.run (post.run fileSandbox).2).2
      [(user.run (post.run fileSandbox).2).1, (post.run fileSandbox).1] := hpost.trans huser
  exact ⟨_, _, .concluded hplan hrun, by decide +kernel⟩

end Generator

end ModelTypes
