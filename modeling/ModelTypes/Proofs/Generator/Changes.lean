import Mathlib.Logic.Relation
import ModelTypes.Proofs.Generator.Sites

/-!
# What emission changes in a tree

Emitting files creates directories on the way to the directories of their kinds, and puts the files
there. In whatever order that happens, the tree grows, and what is new in it is known.
-/

namespace ModelTypes.FileTree

open Relation (ReflTransGen)

/-- A directory is created on the way to the directory of a file, or a file is put where its path
leads. -/
inductive Change (base : Location) (root : Path) (files : List RenderedFile) (t : FileTree) :
    FileTree → Prop
  | directory (hfile : file ∈ files) (hspelled : Spelled (file.kind.directoryIn root))
      (hup : ns <+: stem root ++ [file.kind.directory])
      (habs : ns = [] → Path.isAbsolute root = true) (hwalk : t.walk (start base root) ns = .ok l)
      (hnode : t.node? l = none) : Change base root files t (t.insert l .directory)
  | file (hfile : file ∈ files) (hlocate : t.locate base (file.path root) = .ok l)
      (hnode : t.node? l ≠ some .directory) :
      Change base root files t (t.insert l (.file (.text file.contents)))

def Evolves (base : Location) (root : Path) (files : List RenderedFile) :
    FileTree → FileTree → Prop :=
  ReflTransGen (Change base root files)

def OnTheWay (base : Location) (root : Path) (files : List RenderedFile) (t : FileTree)
    (l : Location) : Prop :=
  ∃ file ∈ files, ∃ ns, ns <+: stem root ++ [file.kind.directory] ∧
    t.walk (start base root) ns = .ok l

def PlaceOf (base : Location) (root : Path) (files : List RenderedFile) (t : FileTree)
    (l : Location) (c : Contents) : Prop :=
  ∃ file ∈ files, c = .text file.contents ∧ t.locate base (file.path root) = .ok l

variable {base here l m : Location} {root : Path} {file other : RenderedFile}
  {files : List RenderedFile} {t u v w : FileTree} {ns rest : List String}

theorem Grows.onTheWay (h : Grows t u) (hl : OnTheWay base root files t l) :
    OnTheWay base root files u l := by
  obtain ⟨file, hfile, ns, hup, hwalk⟩ := hl
  exact ⟨file, hfile, ns, hup, h.walk_ok hwalk⟩

theorem Grows.placeOf (h : Grows t u) (hl : PlaceOf base root files t l c) :
    PlaceOf base root files u l c := by
  obtain ⟨file, hfile, hc, hlocate⟩ := hl
  exact ⟨file, hfile, hc, h.locate_ok hlocate⟩

theorem Change.grows (h : Change base root files t u) : Grows t u := by
  cases h with
  | directory _ _ _ _ _ hnode => exact grows_insert_directory hnode
  | file _ _ hnode => exact grows_insert_file hnode

theorem Evolves.grows (h : Evolves base root files t u) : Grows t u := by
  induction h with
  | refl => exact .refl t
  | tail _ hchange ih => exact ih.trans hchange.grows

/-! ## What is new -/

theorem Change.of_directory (h : Change base root files t u) (hl : u.node? l = some .directory) :
    t.node? l = some .directory ∨ t.node? l = none ∧ OnTheWay base root files u l := by
  have hgrows := h.grows
  cases h with
  | @directory file ns l' hfile _ hup _ hwalk hnode =>
    rw [node?_insert] at hl
    split at hl
    · next heq =>
      subst heq
      exact .inr ⟨hnode, file, hfile, ns, hup, hgrows.walk_ok hwalk⟩
    · exact .inl hl
  | file =>
    rw [node?_insert] at hl
    split at hl
    · cases hl
    · exact .inl hl

theorem Change.of_file (h : Change base root files t u) (hl : u.node? l = some (.file c)) :
    t.node? l = some (.file c) ∨ PlaceOf base root files u l c := by
  have hgrows := h.grows
  cases h with
  | directory =>
    rw [node?_insert] at hl
    split at hl
    · cases hl
    · exact .inl hl
  | @file file l' hfile hlocate hnode =>
    rw [node?_insert] at hl
    split at hl
    · next heq =>
      subst heq
      cases hl
      exact .inr ⟨file, hfile, rfl, hgrows.locate_ok hlocate⟩
    · exact .inl hl

theorem Evolves.of_directory (h : Evolves base root files t u)
    (hl : u.node? l = some .directory) :
    t.node? l = some .directory ∨ t.node? l = none ∧ OnTheWay base root files u l := by
  induction h with
  | refl => exact .inl hl
  | tail hv hchange ih =>
    rcases hchange.of_directory hl with hl | ⟨hnone, hway⟩
    · exact (ih hl).imp_right (And.imp_right hchange.grows.onTheWay)
    · exact .inr ⟨(Evolves.grows hv).node?_eq_none hnone, hway⟩

theorem Evolves.of_file (h : Evolves base root files t u) (hl : u.node? l = some (.file c)) :
    t.node? l = some (.file c) ∨ PlaceOf base root files u l c := by
  induction h with
  | refl => exact .inl hl
  | tail _ hchange ih =>
    rcases hchange.of_file hl with hl | hplace
    · exact (ih hl).imp_right hchange.grows.placeOf
    · exact .inr hplace

theorem OnTheWay.ne (hgrows : Grows t u) (hplain : file.Plain)
    (hlocate : t.locate base (file.path root) = .ok l) (hnode : t.node? l ≠ some .directory)
    (h : OnTheWay base root files u m) : m ≠ l := by
  obtain ⟨other, hother, ns, hup, hwalk⟩ := h
  obtain ⟨m', hm', hne⟩ := exists_walk_of_prefix hplain hlocate hnode hup
  cases hwalk.symm.trans (hgrows.walk_ok hm')
  exact hne

/-- Without going up, no place of a file is on the way to a directory, whatever stands there. -/
theorem OnTheWay.ne_of_plain (hplain : file.Plain) (hdot : file.fileName ≠ ".")
    (hup : file.fileName ≠ "..") (hroot : ".." ∉ stem root)
    (hlocate : t.locate base (file.path root) = .ok l) (h : OnTheWay base root files t m) :
    m ≠ l := by
  rintro rfl
  obtain ⟨other, -, ns, hns, hwalk⟩ := h
  obtain ⟨top, hsite⟩ := exists_site hplain hlocate
  have hl := eq_of_turn hsite.turn hplain.2 hdot hup
  rcases List.prefix_concat_iff.1 hns with rfl | ⟨rest, hrest⟩
  · rw [walk_directory hsite.walk_stem hsite.node_top, hl] at hwalk
    simp at hwalk
  · have hstem := hsite.walk_stem
    rw [← hrest, walk_append_ok hwalk] at hstem
    have hrest' : ".." ∉ rest := fun hmem => hroot (hrest ▸ List.mem_append_right _ hmem)
    have hlength := (below_of_walk hrest' hstem).length_le
    simp only [hl, List.length_append, List.length_singleton] at hlength
    omega

end ModelTypes.FileTree
