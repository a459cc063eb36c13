import ModelTypes.Proofs.Generator.Settled
import ModelTypes.Proofs.Host.Tasks
import ModelTypes.Proofs.Path.Ancestors

/-!
# Emission among other tasks

While other tasks emit their files, each call of an emission changes the tree as emissions do, and
the result is one that the tree bears out from then on.
-/

namespace ModelTypes

open FileTree (Spelled Blocked Emitted names stem start locate_eq)

def Sandbox.Evolves (root : Path) (files : List RenderedFile) (s s' : Sandbox) : Prop :=
  s'.workingDirectory = s.workingDirectory ∧
    FileTree.Evolves s.workingDirectory root files s.tree s'.tree

structure Reached (base : Location) (root : Path) (files : List RenderedFile) (t : FileTree)
    (s : Sandbox) : Prop where
  workingDirectory : s.workingDirectory = base
  tree : FileTree.Evolves base root files t s.tree

structure Above (root : Path) (file : RenderedFile) (path : Path) : Prop where
  onTheWay : names path <+: stem root ++ [file.kind.directory]
  absolute : Path.isAbsolute path = Path.isAbsolute root
  spelled : Spelled path → Spelled (file.kind.directoryIn root)

variable {base l : Location} {root path parent : Path} {file : RenderedFile}
  {files : List RenderedFile} {t u : FileTree} {s s' : Sandbox}

theorem Sandbox.Evolves.refl (s : Sandbox) : s.Evolves root files s :=
  ⟨rfl, .refl⟩

theorem Sandbox.Evolves.trans (s s' s'' : Sandbox) (h : s.Evolves root files s')
    (h' : s'.Evolves root files s'') : s.Evolves root files s'' := by
  obtain ⟨hbase, htree⟩ := h
  obtain ⟨hbase', htree'⟩ := h'
  rw [hbase] at hbase' htree'
  exact ⟨hbase', htree.trans htree'⟩

theorem Reached.evolves (h : Reached base root files t s) (hs : s.Evolves root files s') :
    Reached base root files t s' := by
  obtain ⟨rfl, htree⟩ := h
  exact ⟨hs.1, htree.trans hs.2⟩

theorem Reached.change (h : Reached base root files t s)
    (hchange : FileTree.Change base root files s.tree u) :
    s.Evolves root files { s with tree := u } := by
  obtain ⟨rfl, -⟩ := h
  exact ⟨rfl, .single hchange⟩

theorem Reached.later (h : Reached base root files t s) (hs : s.Evolves root files s') :
    FileTree.Evolves base root files s.tree s'.tree := by
  obtain ⟨rfl, -⟩ := h
  exact hs.2

/-! ## Directories -/

/-- What a task may rely on when it has created a directory with those above it or failed to. -/
inductive Created (base : Location) (t u : FileTree) (path : Path) : Except FileError Unit → Prop
  | ok (h : path = "" ∨ u.isDirectory base path = true) : Created base t u path (.ok ())
  | error (h : Blocked base t u path e) : Created base t u path (.error e)

/-- The directory above a path is there, unless there is nothing to start from. -/
def Ready (base : Location) (u : FileTree) (path : Path) : Prop :=
  u.locate base path = .error .notFound → Path.isAbsolute path = false ∧ u.node? base = none

/-- Tasks that end with a directory or find what is in the way of it. -/
def Creates (base : Location) (root : Path) (files : List RenderedFile) (t : FileTree)
    (path : Path) : Task (Except FileError Unit) → Sandbox → Prop :=
  Task.Always (Sandbox.Evolves root files) fun result s =>
    Reached base root files t s ∧ Created base t s.tree path result

section

variable (hseparate : Separate files) (habs : Path.isAbsolute path = Path.isAbsolute root)

include hseparate habs

theorem Ready.evolves (h : Ready base u path) (hevolves : FileTree.Evolves base root files u v) :
    Ready base v path := by
  intro hlocate
  obtain ⟨hrelative, hbase⟩ := h (hevolves.grows.locate_notFound hlocate)
  refine ⟨hrelative, ?_⟩
  rw [hevolves.eq_of_adrift hseparate (habs ▸ hrelative) hbase]
  exact hbase

theorem creates_done (hs : Reached base root files t s) (h : Created base t s.tree path result) :
    Creates base root files t path (.done result) s := by
  intro s' hs'
  refine ⟨hs.evolves hs', ?_⟩
  cases h with
  | ok h => exact .ok (h.imp_right (hs.later hs').grows.isDirectory)
  | error h => exact .error (h.evolves hseparate habs (hs.later hs'))

theorem creates_unlessDirectory (hs : Reached base root files t s)
    (hcreate : s.tree.createDirectory base path = .error e) (hready : Ready base s.tree path) :
    Creates base root files t path (.unlessDirectory path e) s := by
  intro s' hs'
  refine ⟨.refl s', ?_⟩
  have hreached := hs.evolves hs'
  show Creates base root files t path
    (.done (if s'.tree.isDirectory s'.workingDirectory path then _ else _)) s'
  rw [hreached.workingDirectory]
  split
  · next hthere => exact creates_done hseparate habs hreached (.ok (.inr hthere))
  · next hthere =>
    have hblocked : Blocked base t s.tree path e := by
      rcases FileTree.createDirectory_error_iff.1 hcreate with hlocate | ⟨rfl, l, node, hl, hnode⟩
      · by_cases he : e = .notFound
        · subst he
          obtain ⟨hrelative, hbase⟩ := hready hlocate
          exact .adrift hrelative hbase hlocate
        · exact .stuck hlocate he
      · -- what stands there is no directory, or the directory would still be there
        cases node with
        | directory =>
          have hdirectory := FileTree.isDirectory_iff.2 ⟨l, hl, hnode⟩
          exact absurd ((hs.later hs').grows.isDirectory hdirectory) hthere
        | file c => exact .occupied hl hnode
    exact creates_done hseparate habs hreached
      (.error (hblocked.evolves hseparate habs (hs.later hs')))

end

inductive Prepared (base : Location) (t u : FileTree) (path : Path) : Except FileError Unit → Prop
  | ok (h : Ready base u path) : Prepared base t u path (.ok ())
  | error (h : Blocked base t u path e) : Prepared base t u path (.error e)

theorem walk_rung (hnode : u.node? l = some .directory) (hdots : ∀ n ∈ dots, n = "" ∨ n = ".") :
    u.walk l (dots ++ [last]) ≠ .error .notFound := by
  rw [FileTree.walk_append_directory (FileTree.walk_stays hnode hdots) hnode]
  intro h
  cases FileTree.turn_error h

theorem Path.Rung.start (h : Path.Rung path parent) : start base path = start base parent :=
  FileTree.start_congr h.absolute

theorem Path.Rung.spelled (h : Path.Rung path parent) (hspelled : Spelled path)
    (hne : parent ≠ "") : Spelled parent :=
  hspelled.of_prefix hne h.text

theorem ready_of_created (h : Path.Rung path parent) (hspelled : Spelled path)
    (hparent : parent = "" ∨ u.isDirectory base parent = true) : Ready base u path := by
  intro hlocate
  obtain ⟨dots, last, hdots, hnames⟩ := h.names
  rw [locate_eq hspelled, hnames, List.append_assoc, h.start] at hlocate
  rcases hparent with rfl | hdirectory
  · refine ⟨h.absolute, ?_⟩
    replace hlocate : u.walk base (dots ++ [last]) = .error .notFound := hlocate
    rcases hbase : u.node? base with _ | _ | c
    · rfl
    · exact absurd hlocate (walk_rung hbase hdots)
    · rw [FileTree.walk_file hbase (by simp)] at hlocate
      cases hlocate
  · obtain ⟨l, hl, hnode⟩ := FileTree.isDirectory_iff.1 hdirectory
    rw [locate_eq (FileTree.spelled_of_locate hl)] at hl
    rw [FileTree.walk_append_ok hl] at hlocate
    exact absurd hlocate (walk_rung hnode hdots)

theorem blocked_of_parent (h : Path.Rung path parent) (hspelled : Spelled path)
    (hbefore : t.locate base path = .error .notFound) (hparent : Blocked base t u parent e) :
    Blocked base t u path e := by
  obtain ⟨dots, last, -, hnames⟩ := h.names
  rw [List.append_assoc] at hnames
  -- the walk to the path goes through its parent and ends where the walk to the parent ends
  have hpath : u.locate base path =
      u.walk (start base parent) (names parent ++ (dots ++ [last])) := by
    rw [locate_eq hspelled, hnames, h.start]
  cases hparent with
  | stuck hlocate he =>
    have hne : parent ≠ "" := by
      rintro rfl
      cases hlocate
      exact he rfl
    rw [locate_eq (h.spelled hspelled hne)] at hlocate
    exact .stuck (hpath.trans (FileTree.walk_append_error hlocate)) he
  | occupied hlocate hnode =>
    rw [locate_eq (FileTree.spelled_of_locate hlocate)] at hlocate
    refine .late ⟨hbefore, hpath.trans ?_⟩
    rw [FileTree.walk_append_ok hlocate, FileTree.walk_file hnode (by simp)]
  | late hlate =>
    have hne : parent ≠ "" := by
      rintro rfl
      cases hlate.after
    have hafter := hlate.after
    rw [locate_eq (h.spelled hspelled hne)] at hafter
    exact .late ⟨hbefore, hpath.trans (FileTree.walk_append_error hafter)⟩
  | adrift hrelative hbase hlocate =>
    refine .adrift (h.absolute.trans hrelative) hbase (hpath.trans ?_)
    rw [FileTree.start_of_relative hrelative]
    exact FileTree.walk_none hbase (by simp)

theorem Created.prepared (h : Path.Rung path parent) (hspelled : Spelled path)
    (hbefore : t.locate base path = .error .notFound) (hparent : Created base t u parent result) :
    Prepared base t u path result := by
  cases hparent with
  | ok hdirectory => exact .ok (ready_of_created h hspelled hdirectory)
  | error hblocked => exact .error (blocked_of_parent h hspelled hbefore hblocked)

section

variable (hseparate : Separate files) (hfile : file ∈ files) (habove : Above root file path)

include hfile habove

theorem Above.create (hs : Reached base root files t s)
    (hroot : names path = [] → Path.isAbsolute path = true)
    (hcreate : s.tree.createDirectory base path = .ok u) :
    s.Evolves root files { s with tree := u } ∧ u.isDirectory base path = true := by
  obtain ⟨l, hlocate, hnode, rfl⟩ := FileTree.createDirectory_ok_iff.1 hcreate
  have hspelled := FileTree.spelled_of_locate hlocate
  have hwalk := hlocate
  rw [locate_eq hspelled, FileTree.start_congr habove.absolute] at hwalk
  have hchange := FileTree.Change.directory hfile (habove.spelled hspelled) habove.onTheWay
    (fun hnames => habove.absolute ▸ hroot hnames) hwalk hnode
  refine ⟨hs.change hchange, FileTree.isDirectory_iff.2 ⟨l, hchange.grows.locate_ok hlocate, ?_⟩⟩
  rw [FileTree.node?_insert, if_pos rfl]

include hseparate

theorem creates_attempt {next : Except FileError Unit → Task (Except FileError Unit)}
    (hs : Reached base root files t s) (hroot : names path = [] → Path.isAbsolute path = true)
    (hok : next (.ok ()) = .done (.ok ()))
    (herror : ∀ s' e, Reached base root files t s' → s.Evolves root files s' →
      s'.tree.createDirectory base path = .error e →
      Creates base root files t path (next (.error e)) s') :
    Creates base root files t path (.call (.createDirectory path) next) s := by
  intro s' hs'
  -- the call is made in a sandbox in which others have been at work
  have hreached := hs.evolves hs'
  show s'.Evolves root files
      (Call.settle s' (s'.tree.createDirectory s'.workingDirectory path)).2 ∧
    Creates base root files t path
      (next (Call.settle s' (s'.tree.createDirectory s'.workingDirectory path)).1)
      (Call.settle s' (s'.tree.createDirectory s'.workingDirectory path)).2
  rw [hreached.workingDirectory]
  cases hcreate : s'.tree.createDirectory base path with
  | ok u =>
    obtain ⟨hevolves, hdirectory⟩ := habove.create hfile hreached hroot hcreate
    refine ⟨hevolves, ?_⟩
    show Creates base root files t path (next (.ok ())) { s' with tree := u }
    rw [hok]
    exact creates_done hseparate habove.absolute (hreached.evolves hevolves) (.ok (.inr hdirectory))
  | error e => exact ⟨.refl s', herror s' e hreached hs' hcreate⟩

theorem creates_createFrom_cons (hs : Reached base root files t s) (hne : path ≠ "")
    (hroot : names path = [] → Path.isAbsolute path = true)
    (hparent : t.locate base path = .error .notFound → ∀ s', Reached base root files t s' →
      Task.Always (Sandbox.Evolves root files)
        (fun result s => Reached base root files t s ∧ Prepared base t s.tree path result)
        (.createFrom above) s') :
    Creates base root files t path (.createFrom (path :: above)) s := by
  unfold Task.createFrom
  rw [if_neg hne]
  refine creates_attempt hseparate hfile habove hs hroot rfl ?_
  intro s' e hs' hevolves hcreate
  by_cases he : e = .notFound
  · subst he
    -- the directory above is missing: the task creates it and tries again
    have hnow : s'.tree.locate base path = .error .notFound := by
      rcases FileTree.createDirectory_error_iff.1 hcreate with hnow | ⟨he, -⟩
      · exact hnow
      · cases he
    have hbefore := hs'.tree.grows.locate_notFound hnow
    refine Task.Always.bind Sandbox.Evolves.refl (hparent hbefore s' hs') ?_
    rintro result s'' ⟨hs'', hprepared⟩
    cases hprepared with
    | error hblocked => exact creates_done hseparate habove.absolute hs'' (.error hblocked)
    | ok hready =>
      refine creates_attempt hseparate hfile habove hs'' hroot rfl ?_
      intro s₃ e hs₃ hevolves hcreate
      exact creates_unlessDirectory hseparate habove.absolute hs₃ hcreate
        (hready.evolves hseparate habove.absolute (hs''.later hevolves))
  · -- any other failure is not one of the directory above
    have hready : Ready base s'.tree path := by
      intro hlocate
      have hcreate' := FileTree.createDirectory_error_iff.2 (.inl hlocate)
      cases hcreate.symm.trans hcreate'
      exact absurd rfl he
    have hcreates := creates_unlessDirectory hseparate habove.absolute hs' hcreate hready
    cases e with
    | notFound => exact absurd rfl he
    | _ => exact hcreates

end

theorem creates_createFrom (hseparate : Separate files) (hfile : file ∈ files)
    (hladder : Path.Ladder paths) (hpath : paths.head? = some path) (habove : Above root file path)
    (hs : Reached base root files t s) : Creates base root files t path (.createFrom paths) s := by
  -- on the ladder of the directories above, as each is created by the task for the one below
  induction hladder generalizing path s with
  | empty =>
    cases hpath
    exact creates_done hseparate habove.absolute hs (.ok (.inl rfl))
  | root =>
    cases hpath
    refine creates_createFrom_cons hseparate hfile habove hs (by simp) (fun _ => rfl) ?_
    intro hbefore
    cases hbefore
  | @rung child parent above hrung hladder ih =>
    cases hpath
    have hne := hrung.ne_empty
    refine creates_createFrom_cons hseparate hfile habove hs hne
      ((Path.Ladder.rung hrung hladder).isAbsolute hne) ?_
    intro hbefore s' hs'
    have hspelled := FileTree.spelled_of_notFound hbefore hne
    have hparent : Above root file parent := by
      obtain ⟨dots, last, -, hnames⟩ := hrung.names
      refine ⟨?_, hrung.absolute.symm.trans habove.absolute, fun _ => habove.spelled hspelled⟩
      have honTheWay := habove.onTheWay
      rw [hnames, List.append_assoc] at honTheWay
      exact (List.prefix_append _ _).trans honTheWay
    refine (ih rfl hparent hs').imp ?_
    rintro result s'' ⟨hs'', hcreated⟩
    exact ⟨hs'', hcreated.prepared hrung hspelled hbefore⟩

theorem above_directoryIn : Above root file (file.kind.directoryIn root) := by
  refine ⟨⟨[], ?_⟩, FileTree.isAbsolute_directoryIn, id⟩
  rw [List.append_nil, FileTree.names_directoryIn]

/-! ## Files -/

/-- Tasks that emit a file or find out why it cannot be. -/
def Emits (base : Location) (root : Path) (files : List RenderedFile) (t : FileTree)
    (file : RenderedFile) : Task (Except DocumentFailure Path) → Sandbox → Prop :=
  Task.Always (Sandbox.Evolves root files) fun result s =>
    Reached base root files t s ∧ Emitted base root t s.tree file result

section

variable (hseparate : Separate files) (hfile : file ∈ files)

include hseparate hfile

theorem emits_done (hs : Reached base root files t s) (h : Emitted base root t s.tree file result) :
    Emits base root files t file (.done result) s := by
  intro s' hs'
  exact ⟨hs.evolves hs', h.evolves hseparate hfile (hs.later hs')⟩

theorem emits_write {next : Except FileError Unit → Task (Except DocumentFailure Path)}
    (hs : Reached base root files t s)
    (hdirectory : s.tree.isDirectory base (file.kind.directoryIn root) = true)
    (hok : next (.ok ()) = .done (.ok (file.path root)))
    (herror : ∀ e, next (.error e) = .done (.error (.write (file.path root) e))) :
    Emits base root files t file (.call (.write (file.path root) file.contents) next) s := by
  intro s' hs'
  have hplain := hseparate.plain file hfile
  have hreached := hs.evolves hs'
  -- nothing that stands is taken away, so the directory is still there
  have hthere := (hs.later hs').grows.isDirectory hdirectory
  show s'.Evolves root files (Call.settle s' (s'.tree.write s'.workingDirectory _ _)).2 ∧
    Emits base root files t file
      (next (Call.settle s' (s'.tree.write s'.workingDirectory _ _)).1)
      (Call.settle s' (s'.tree.write s'.workingDirectory _ _)).2
  rw [hreached.workingDirectory]
  cases hwrite : s'.tree.write base (file.path root) (.text file.contents) with
  | ok u =>
    obtain ⟨l, hlocate, -, hnode, rfl⟩ := FileTree.write_ok_iff.1 hwrite
    have hchange := FileTree.Change.file hfile hlocate hnode
    refine ⟨hreached.change hchange, ?_⟩
    show Emits base root files t file (next (.ok ())) { s' with tree := _ }
    rw [hok]
    refine emits_done hseparate hfile (hreached.evolves (hreached.change hchange)) ?_
    refine .written (hchange.grows.locate_ok hlocate) ?_
    rw [FileTree.node?_insert, if_pos rfl]
  | error e =>
    refine ⟨.refl s', ?_⟩
    show Emits base root files t file (next (.error e)) s'
    rw [herror]
    refine emits_done hseparate hfile hreached ?_
    rcases FileTree.write_error_iff.1 hwrite with hlocate | ⟨rfl, l, hlocate, hnode⟩
    · refine .refused hthere hlocate ?_
      rintro rfl
      exact FileTree.locate_path_ne_notFound hplain hthere hlocate
    · refine .occupied hlocate (hnode.resolve_left ?_)
      unfold RenderedFile.path
      simp [FileTree.endsInSlash_join hplain.1 hplain.2]

/-- A file is emitted, or what is in its way is found, whatever other emissions do meanwhile. -/
theorem emits (hs : Reached base root files t s) :
    Emits base root files t file (file.emit root) s := by
  obtain ⟨hslash, hdot, hne⟩ := file.kind.directory_plain
  have hladder : Path.Ladder (Path.ancestors (file.kind.directoryIn root)) :=
    Path.ladder_ancestors hslash hdot hne
  have hcreates := creates_createFrom hseparate hfile hladder (Path.head?_ancestors _)
    above_directoryIn hs
  refine Task.Always.bind Sandbox.Evolves.refl hcreates ?_
  rintro result s' ⟨hs', hcreated⟩
  cases hcreated with
  | error hblocked => exact emits_done hseparate hfile hs' (.blocked hblocked)
  | ok hdirectory =>
    replace hdirectory := hdirectory.resolve_left (FileTree.join_ne_empty hslash hne)
    -- the report comes between the directory and the file
    intro s'' hs''
    have hreport (line) : s''.Evolves root files (Call.perform s'' (.report line)).2 := ⟨rfl, .refl⟩
    refine ⟨hreport _, ?_⟩
    have hthere := (hs'.later hs'').grows.isDirectory hdirectory
    exact emits_write hseparate hfile ((hs'.evolves hs'').evolves (hreport _)) hthere rfl
      fun _ => rfl

end

end ModelTypes
