import ModelTypes.Proofs.Generator.Interleaving
import ModelTypes.Proofs.Generator.Results

/-!
# Where a run writes

A run puts files only where the paths of its documents lead, each below the output root in the
directory of its kind. A file name without a slash stands directly in that directory, apart from all
others; one with slashes is followed like any other path.
-/

namespace ModelTypes

variable {s s' : Sandbox} {path root : Path} {paths : List Path} {l l' : Location}

/-! ## Filling paths -/

structure Sandbox.Holds (s : Sandbox) (path : Path) (l : Location) : Prop where
  locate : s.tree.locate s.workingDirectory path = .ok l
  node : ∃ c, s.tree.node? l = some (.file c)

/-- The tree has grown, and whatever file is new in it or has changed is at one of the paths. -/
structure Sandbox.Fills (paths : List Path) (s s' : Sandbox) : Prop where
  workingDirectory : s'.workingDirectory = s.workingDirectory
  tree : FileTree.Grows s.tree s'.tree
  files : ∀ l c, s'.tree.node? l = some (.file c) →
    s.tree.node? l = some (.file c) ∨ ∃ path ∈ paths, s'.Holds path l

theorem Sandbox.Holds.fills (h : s.Holds path l) (hs : Fills paths s s') : s'.Holds path l := by
  obtain ⟨hlocate, c, hc⟩ := h
  refine ⟨?_, hs.tree.file hc⟩
  rw [hs.workingDirectory]
  exact hs.tree.locate_ok hlocate

namespace Sandbox.Fills

theorem refl (s : Sandbox) : Fills paths s s :=
  ⟨rfl, .refl _, fun _ _ h => .inl h⟩

theorem trans (s s' s'' : Sandbox) (h : Fills paths s s') (h' : Fills paths s' s'') :
    Fills paths s s'' := by
  refine ⟨h'.workingDirectory.trans h.workingDirectory, h.tree.trans h'.tree, fun l c hl => ?_⟩
  rcases h'.files l c hl with hl | hnew
  · refine (h.files l c hl).imp_right ?_
    rintro ⟨path, hpath, hholds⟩
    exact ⟨path, hpath, hholds.fills h'⟩
  · exact .inr hnew

theorem insert_directory (hnone : s.tree.node? l = none) :
    Fills paths s { s with tree := s.tree.insert l .directory } := by
  refine ⟨rfl, FileTree.grows_insert_directory hnone, fun l' c hl' => .inl ?_⟩
  rw [FileTree.node?_insert] at hl'
  split at hl'
  · cases hl'
  · exact hl'

theorem insert_file (hpath : path ∈ paths)
    (hlocate : s.tree.locate s.workingDirectory path = .ok l)
    (hnode : s.tree.node? l ≠ some .directory) :
    Fills paths s { s with tree := s.tree.insert l (.file c) } := by
  have hgrows : FileTree.Grows s.tree (s.tree.insert l (.file c)) :=
    FileTree.grows_insert_file hnode
  refine ⟨rfl, hgrows, fun l' c' hl' => ?_⟩
  by_cases hl : l = l'
  · subst hl
    exact .inr ⟨path, hpath, hgrows.locate_ok hlocate, c', hl'⟩
  · rw [FileTree.node?_insert, if_neg hl] at hl'
    exact .inl hl'

end Sandbox.Fills

def Placed (path : Path) (result : Except DocumentFailure Path) (s : Sandbox) : Prop :=
  ∀ given, result = .ok given → given = path ∧ ∃ l, s.Holds path l

namespace Task

open Sandbox (Fills)

/-! ## Tasks that write nowhere else -/

def WritesTo (paths : List Path) : Task α → Prop
  | done _ => True
  | call c next => (∀ path text, c = .write path text → path ∈ paths) ∧
      ∀ response, WritesTo paths (next response)

theorem writesTo_unlessDirectory (e : FileError) : WritesTo paths (unlessDirectory path e) :=
  ⟨by rintro _ _ ⟨⟩, fun _ => trivial⟩

theorem WritesTo.bind {x : Task α} {f : α → Task β} (hx : WritesTo paths x)
    (hf : ∀ a, WritesTo paths (f a)) : WritesTo paths (x.bind f) := by
  induction x with
  | done a => exact hf a
  | call c next ih => exact ⟨hx.1, fun response => ih response (hx.2 response)⟩

theorem writesTo_createFrom (directories : List Path) :
    WritesTo paths (createFrom directories) := by
  -- only directories are created, at every step of the recursion
  induction directories with
  | nil => trivial
  | cons path above ih =>
    unfold createFrom
    split
    · trivial
    · refine ⟨by rintro _ _ ⟨⟩, ?_⟩
      rintro (e | _)
      · cases e with
        | notFound =>
          refine ih.bind ?_
          rintro (e | _)
          · trivial
          · refine ⟨by rintro _ _ ⟨⟩, ?_⟩
            rintro (e | _)
            · exact writesTo_unlessDirectory e
            · trivial
        | _ => exact writesTo_unlessDirectory _
      · trivial

theorem fills_perform {c : Call} (h : ∀ path text, c = .write path text → path ∈ paths)
    (s : Sandbox) : Fills paths s (c.perform s).2 := by
  -- a call adds one node, where nothing or a file stood, or leaves the tree as it is
  cases c with
  | createDirectory path =>
    show Fills paths s (Call.settle s (s.tree.createDirectory s.workingDirectory path)).2
    cases hcreate : s.tree.createDirectory s.workingDirectory path with
    | error e => exact .refl s
    | ok t =>
      obtain ⟨l, -, hnone, rfl⟩ := FileTree.createDirectory_ok_iff.1 hcreate
      exact .insert_directory hnone
  | write path text =>
    show Fills paths s (Call.settle s (s.tree.write s.workingDirectory path (.text text))).2
    cases hwrite : s.tree.write s.workingDirectory path (.text text) with
    | error e => exact .refl s
    | ok t =>
      obtain ⟨l, hlocate, -, hnode, rfl⟩ := FileTree.write_ok_iff.1 hwrite
      exact .insert_file (h path text rfl) hlocate hnode
  | report line => exact ⟨rfl, .refl _, fun _ _ h => .inl h⟩
  | _ => exact .refl s

theorem always_fills {x : Task α} (h : WritesTo paths x) (s : Sandbox) :
    Always (Fills paths) (fun _ _ => True) x s := by
  induction x generalizing s with
  | done a => exact fun _ _ => trivial
  | call c next ih => exact fun s' _ => ⟨fills_perform h.1 s', ih _ (h.2 _) _⟩

theorem always_error (e : DocumentFailure) (s : Sandbox) :
    Always (Fills paths) (Placed path) (.done (.error e)) s := by
  rintro s' - given ⟨⟩

theorem always_write {next : Except FileError Unit → Task (Except DocumentFailure Path)}
    (hpath : path ∈ paths) (hok : next (.ok ()) = .done (.ok path))
    (herror : ∀ e, ∃ failure, next (.error e) = .done (.error failure)) (s : Sandbox) :
    Always (Fills paths) (Placed path) (.call (.write path text) next) s := by
  intro s' _
  have hwrites : ∀ path' text', Call.write path text = .write path' text' → path' ∈ paths := by
    rintro _ _ ⟨⟩
    exact hpath
  refine ⟨fills_perform hwrites s', ?_⟩
  show Always _ _ (next (Call.settle s' (s'.tree.write s'.workingDirectory _ _)).1)
    (Call.settle s' (s'.tree.write s'.workingDirectory _ _)).2
  cases hwrite : s'.tree.write s'.workingDirectory path (.text text) with
  | error e =>
    obtain ⟨failure, hfailure⟩ := herror e
    show Always _ _ (next (.error e)) s'
    rw [hfailure]
    exact always_error failure s'
  | ok t =>
    obtain ⟨l, hlocate, -, hnode, rfl⟩ := FileTree.write_ok_iff.1 hwrite
    show Always _ _ (next (.ok ())) { s' with tree := s'.tree.insert l _ }
    rw [hok]
    rintro s'' hs'' given ⟨⟩
    have hholds : Sandbox.Holds { s' with tree := s'.tree.insert l (.file (.text text)) } path l := by
      refine ⟨(FileTree.grows_insert_file hnode).locate_ok hlocate, .text text, ?_⟩
      rw [FileTree.node?_insert, if_pos rfl]
    exact ⟨rfl, l, hholds.fills hs''⟩

theorem always_emit (file : RenderedFile) (root : Path) (hpath : file.path root ∈ paths)
    (s : Sandbox) : Always (Fills paths) (Placed (file.path root)) (file.emit root) s := by
  have hdirectories : WritesTo paths
      (Host.createDirectories (file.kind.directoryIn root) : Task (Except FileError Unit)) :=
    writesTo_createFrom _
  refine (always_fills hdirectories s).bind .refl ?_
  rintro (e | _) s' -
  · exact always_error _ s'
  · -- the report comes between the directory and the file
    intro s'' _
    exact ⟨⟨rfl, .refl _, fun _ _ h => .inl h⟩, always_write hpath rfl (fun e => ⟨_, rfl⟩) _⟩

end Task

namespace Generator

variable {g : Generator} {d d' : Document} {documents : List Document} {models : List Model}
  {results : List (Except DocumentFailure Path)}

/-- A path that a document gives is its own, leads to a file and is given only for a rendered
document. -/
def Gives (g : Generator) (d : Document) (result : Except DocumentFailure Path) (s : Sandbox) : Prop :=
  ∀ path, result = .ok path →
    path = g.path d ∧ (∃ l, s.Holds path l) ∧ ∃ file, g.render d = .ok file

theorem always_process (hd : d ∈ documents) (s : Sandbox) :
    Task.Always (Sandbox.Fills (documents.map g.path)) (g.Gives d) (g.process d) s := by
  unfold process
  cases hrender : g.render d with
  | error e => rintro s' - path ⟨⟩
  | ok file =>
    have hpath := List.mem_map_of_mem (f := g.path) hd
    rw [← path_of_render hrender] at hpath
    refine (Task.always_emit file g.config.outputPath hpath s).imp ?_
    intro result s' hplaced path hresult
    obtain ⟨rfl, hholds⟩ := hplaced path hresult
    exact ⟨path_of_render hrender, hholds, file, hrender⟩

theorem interleaving_gives (h : Task.Interleaving s (documents.map g.process) s' results) :
    Sandbox.Fills (documents.map g.path) s s' ∧
      List.Forall₂ (fun d result => g.Gives d result s') documents results := by
  have htasks : List.Forall₂ (fun d x => Task.Always (Sandbox.Fills (documents.map g.path))
      (g.Gives d) x s) documents (documents.map g.process) :=
    List.forall₂_map_right_iff.2 (List.forall₂_same.2 fun d hd => always_process hd s)
  exact Task.Always.interleaving .refl .trans htasks h

/-! ## Single names -/

end Generator

end ModelTypes
