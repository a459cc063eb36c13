import ModelTypes.Generator
import ModelTypes.Proofs.FileTree.Walks
import ModelTypes.Proofs.Path.Names

/-!
# Where files are put

The path of a file leads through the output root, which may itself go up and down, to the directory
of a kind of document and from there to the file.
-/

namespace ModelTypes

def RenderedFile.Plain (file : RenderedFile) : Prop :=
  '/' ∉ file.fileName.toList ∧ file.fileName ≠ ""

structure Separate (files : List RenderedFile) : Prop where
  plain : ∀ file ∈ files, file.Plain
  unique : ∀ file ∈ files, ∀ other ∈ files, file.fileName = other.fileName → file = other

theorem DocumentKind.directory_plain (kind : DocumentKind) : '/' ∉ kind.directory.toList ∧
    '.' ∉ kind.directory.toList ∧ kind.directory ≠ "" := by
  cases kind <;> decide

namespace FileTree

variable {base here l m : Location} {root : Path} {kind : DocumentKind} {file other : RenderedFile}
  {files : List RenderedFile} {t u v w : FileTree} {ns rest : List String}

/-! ## The way to a file -/

theorem names_directoryIn : names (kind.directoryIn root) = stem root ++ [kind.directory] :=
  names_join kind.directory_plain.1 kind.directory_plain.2.2

theorem names_path (h : file.Plain) :
    names (file.path root) = stem root ++ [file.kind.directory, file.fileName] := by
  unfold RenderedFile.path DocumentKind.directoryIn
  rw [names_join h.1 h.2, stem_join file.kind.directory_plain.1 file.kind.directory_plain.2.2,
    List.append_assoc]
  rfl

theorem isAbsolute_directoryIn :
    Path.isAbsolute (kind.directoryIn root) = Path.isAbsolute root :=
  isAbsolute_join kind.directory_plain.1

theorem start_directoryIn : start base (kind.directoryIn root) = start base root :=
  start_congr isAbsolute_directoryIn

theorem start_path (h : file.Plain) : start base (file.path root) = start base root :=
  start_congr ((isAbsolute_join h.1).trans isAbsolute_directoryIn)

theorem Spelled.of_prefix (h : Spelled path) (hne : parent ≠ "")
    (hup : parent.toList <+: path.toList) : Spelled parent := by
  obtain ⟨hnul, -, hlength⟩ := h
  refine ⟨fun hmem => hnul (hup.subset hmem), hne, ?_⟩
  obtain ⟨rest, hrest⟩ := hup
  have hpath : path = parent ++ String.ofList rest := by
    rw [← String.toList_inj, String.toList_append, String.toList_ofList, hrest]
  rw [hpath, String.utf8ByteSize_append] at hlength
  omega

theorem Spelled.directoryIn (h : Spelled (file.path root)) (hplain : file.Plain) :
    Spelled (file.kind.directoryIn root) := by
  refine h.of_prefix (join_ne_empty file.kind.directory_plain.1 file.kind.directory_plain.2.2) ?_
  unfold RenderedFile.path
  rw [toList_join hplain.1]
  exact List.prefix_append _ _

theorem locate_directoryIn (h : Spelled (kind.directoryIn root)) :
    t.locate base (kind.directoryIn root) =
      t.walk (start base root) (stem root ++ [kind.directory]) := by
  rw [locate_eq h, start_directoryIn, names_directoryIn]

theorem locate_path (h : Spelled (file.path root)) (hplain : file.Plain) :
    t.locate base (file.path root) =
      t.walk (start base root) (stem root ++ [file.kind.directory, file.fileName]) := by
  rw [locate_eq h, start_path hplain, names_path hplain]

theorem eq_of_turn (h : turn here name = .ok l) (hne : name ≠ "") (hdot : name ≠ ".")
    (hup : name ≠ "..") : l = here ++ [name] := by
  unfold turn at h
  rw [if_neg (by simp [hne, hdot]), if_neg hup] at h
  split at h
  · cases h
  · cases h
    rfl

theorem turn_directory : turn here kind.directory = .ok (here ++ [kind.directory]) := by
  cases kind <;> rfl

theorem walk_directory (h : t.walk here ns = .ok l) (hnode : t.node? l = some .directory) :
    t.walk here (ns ++ [kind.directory]) = .ok (l ++ [kind.directory]) := by
  rw [walk_append_directory h hnode, turn_directory]

/-- Where a file's path leads, if it leads somewhere. -/
structure Site (t : FileTree) (base : Location) (root : Path) (file : RenderedFile)
    (top l : Location) : Prop where
  walk_stem : t.walk (start base root) (stem root) = .ok top
  node_top : t.node? top = some .directory
  node_directory : t.node? (top ++ [file.kind.directory]) = some .directory
  turn : turn (top ++ [file.kind.directory]) file.fileName = .ok l
  isDirectory : t.isDirectory base (file.kind.directoryIn root) = true

theorem exists_site (hplain : file.Plain) (h : t.locate base (file.path root) = .ok l) :
    ∃ top, Site t base root file top l := by
  have hspelled := spelled_of_locate h
  rw [locate_path hspelled hplain] at h
  obtain ⟨top, hstem, htop, hrest⟩ := exists_of_walk_append h
  rw [walk_cons_ok (step_directory htop _ |>.trans turn_directory), walk_singleton] at hrest
  have hdirectory := node?_of_step hrest
  refine ⟨top, hstem, htop, hdirectory, ?_, ?_⟩
  · rw [← hrest, step_directory hdirectory]
  · refine isDirectory_iff.2 ⟨_, ?_, hdirectory⟩
    rw [locate_directoryIn (hspelled.directoryIn hplain), walk_directory hstem htop]

theorem Site.location (h : Site t base root file top l) (hnode : t.node? l ≠ some .directory) :
    l = top ++ [file.kind.directory, file.fileName] := by
  have hturn := h.turn
  unfold FileTree.turn at hturn
  split at hturn
  · cases hturn
    exact absurd h.node_directory hnode
  · split at hturn
    · cases hturn
      rw [List.dropLast_concat] at hnode
      exact absurd h.node_top hnode
    · split at hturn
      · cases hturn
      · cases hturn
        rw [List.append_assoc]
        rfl

theorem fileName_eq_of_locate (hplain : file.Plain) (hplain' : other.Plain)
    (h : t.locate base (file.path root) = .ok l) (h' : t.locate base (other.path root) = .ok l)
    (hnode : t.node? l ≠ some .directory) : file.fileName = other.fileName := by
  obtain ⟨top, hsite⟩ := exists_site hplain h
  obtain ⟨top', hsite'⟩ := exists_site hplain' h'
  have hl := hsite.location hnode
  rw [hsite'.location hnode] at hl
  have hnames := List.append_inj_right' hl rfl
  simp only [List.cons.injEq, and_true] at hnames
  exact hnames.2.symm

theorem locate_path_ne_notFound (hplain : file.Plain)
    (h : t.isDirectory base (file.kind.directoryIn root) = true) :
    t.locate base (file.path root) ≠ .error .notFound := by
  intro hlocate
  obtain ⟨l, hl, hnode⟩ := isDirectory_iff.1 h
  have hspelled := spelled_of_notFound hlocate (join_ne_empty hplain.1 hplain.2)
  rw [locate_directoryIn (spelled_of_locate hl)] at hl
  have hnames : stem root ++ [file.kind.directory, file.fileName] =
      (stem root ++ [file.kind.directory]) ++ [file.fileName] := by simp
  rw [locate_path hspelled hplain, hnames, walk_append_directory hl hnode] at hlocate
  cases turn_error hlocate

theorem directory_of_prefix (hplain : file.Plain) (h : t.locate base (file.path root) = .ok l)
    (hup : ns <+: stem root) : ∃ m, t.walk (start base root) ns = .ok m ∧
      t.node? m = some .directory := by
  obtain ⟨rest, hrest⟩ := hup
  rw [locate_path (spelled_of_locate h) hplain, ← hrest, List.append_assoc] at h
  cases rest with
  | nil =>
    obtain ⟨m, hm, hnode, -⟩ := exists_of_walk_append h
    exact ⟨m, hm, hnode⟩
  | cons name rest =>
    obtain ⟨m, hm, hnode, -⟩ := exists_of_walk_append h
    exact ⟨m, hm, hnode⟩

/-- Where the path of a file leads, the ways to all directories lead as well, and not there. -/
theorem exists_walk_of_prefix (hplain : file.Plain) (h : t.locate base (file.path root) = .ok l)
    (hnode : t.node? l ≠ some .directory) (hup : ns <+: stem root ++ [kind.directory]) :
    ∃ m, t.walk (start base root) ns = .ok m ∧ m ≠ l := by
  obtain ⟨top, hsite⟩ := exists_site hplain h
  rcases List.prefix_concat_iff.1 hup with rfl | hup
  · refine ⟨_, walk_directory hsite.walk_stem hsite.node_top, ?_⟩
    rw [hsite.location hnode]
    simp
  · obtain ⟨m, hm, hdirectory⟩ := directory_of_prefix hplain h hup
    refine ⟨m, hm, ?_⟩
    rintro rfl
    exact hnode hdirectory

end FileTree

end ModelTypes
