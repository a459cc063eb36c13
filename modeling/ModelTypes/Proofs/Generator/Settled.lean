import ModelTypes.Proofs.Generator.Changes

/-!
# How emission ends

The result for a file depends on the tree at the end and on the tree at the beginning alone. Trees
that have come from one tree, and in which all files have got results, are the same.
-/

namespace ModelTypes.FileTree

open Relation (ReflTransGen)

/-- The way to a path was open, and a file was found on it when the directories above were there. -/
structure Late (base : Location) (t u : FileTree) (path : Path) : Prop where
  before : t.locate base path = .error .notFound
  after : u.locate base path = .error .notADirectory

inductive Blocked (base : Location) (t u : FileTree) (path : Path) : FileError → Prop
  | stuck (h : u.locate base path = .error e) (he : e ≠ .notFound) : Blocked base t u path e
  | occupied (h : u.locate base path = .ok l) (hnode : u.node? l = some (.file c)) :
      Blocked base t u path .alreadyExists
  | late (h : Late base t u path) : Blocked base t u path .alreadyExists
  | adrift (hrelative : Path.isAbsolute path = false) (hbase : u.node? base = none)
      (h : u.locate base path = .error .notFound) : Blocked base t u path .notFound

/-- How a file is emitted into a tree that was `t` and has become `u`. -/
inductive Emitted (base : Location) (root : Path) (t u : FileTree) (file : RenderedFile) :
    Except DocumentFailure Path → Prop
  | blocked (h : Blocked base t u (file.kind.directoryIn root) e) :
      Emitted base root t u file (.error (.write (file.kind.directoryIn root) e))
  | refused (hdirectory : u.isDirectory base (file.kind.directoryIn root) = true)
      (h : u.locate base (file.path root) = .error e) (he : e ≠ .notFound) :
      Emitted base root t u file (.error (.write (file.path root) e))
  | occupied (h : u.locate base (file.path root) = .ok l) (hnode : u.node? l = some .directory) :
      Emitted base root t u file (.error (.write (file.path root) .isADirectory))
  | written (h : u.locate base (file.path root) = .ok l)
      (hnode : u.node? l = some (.file (.text file.contents))) :
      Emitted base root t u file (.ok (file.path root))

def Settled (base : Location) (root : Path) (files : List RenderedFile) (t u : FileTree) : Prop :=
  ∀ file ∈ files, ∃ result, Emitted base root t u file result

variable {base l m : Location} {root path : Path} {file other : RenderedFile}
  {files : List RenderedFile} {t u v w : FileTree} {ns : List String} {kind : DocumentKind}

theorem isDirectory_of_locate (hplain : file.Plain) (h : t.locate base (file.path root) = .ok l) :
    t.isDirectory base (file.kind.directoryIn root) = true := by
  obtain ⟨top, hsite⟩ := exists_site hplain h
  exact hsite.isDirectory

/-! ## Results stay -/

theorem Change.elim (hseparate : Separate files) (hrelative : Path.isAbsolute root = false)
    (hbase : t.node? base = none) (h : Change base root files t u) : False := by
  have hstart : start base root = base := start_of_relative hrelative
  have hnode : t.node? base = some .directory := by
    cases h with
    | @directory file ns l _ _ _ habs hwalk _ =>
      cases ns with
      | nil => simp [hrelative] at habs
      | cons name ns => exact node?_of_walk_cons (hstart ▸ hwalk)
    | @file file l hfile hlocate _ =>
      obtain ⟨m, hm, hnode⟩ := directory_of_prefix (hseparate.plain file hfile) hlocate
        List.nil_prefix
      rw [hstart] at hm
      cases hm
      exact hnode
  cases hbase.symm.trans hnode

theorem Evolves.eq_of_adrift (hseparate : Separate files) (hrelative : Path.isAbsolute root = false)
    (hbase : t.node? base = none) (h : Evolves base root files t u) : u = t := by
  induction h with
  | refl => rfl
  | tail _ hchange ih =>
    subst ih
    exact (hchange.elim hseparate hrelative hbase).elim

theorem Blocked.evolves (hseparate : Separate files)
    (habs : Path.isAbsolute path = Path.isAbsolute root) (h : Blocked base t u path e)
    (hevolves : Evolves base root files u v) : Blocked base t v path e := by
  have hgrows := hevolves.grows
  cases h with
  | stuck h he => exact .stuck (hgrows.locate_error h he) he
  | occupied h hnode =>
    obtain ⟨c, hc⟩ := hgrows.file hnode
    exact .occupied (hgrows.locate_ok h) hc
  | late h => exact .late ⟨h.before, hgrows.locate_error h.after (by simp)⟩
  | adrift hrelative hbase h =>
    rw [hevolves.eq_of_adrift hseparate (habs ▸ hrelative) hbase]
    exact .adrift hrelative hbase h

theorem node?_of_change (hseparate : Separate files) (hfile : file ∈ files)
    (h : u.locate base (file.path root) = .ok l)
    (hnode : u.node? l = some (.file (.text file.contents)))
    (hchange : Change base root files u v) :
    v.node? l = some (.file (.text file.contents)) := by
  cases hchange with
  | directory _ _ _ _ _ hnone =>
    rw [node?_insert, if_neg, hnode]
    rintro rfl
    cases hnone.symm.trans hnode
  | @file other l' hother hlocate hnode' =>
    rw [node?_insert]
    split
    · next heq =>
      subst heq
      have hname := fileName_eq_of_locate (hseparate.plain file hfile)
        (hseparate.plain other hother) h hlocate hnode'
      rw [hseparate.unique file hfile other hother hname]
    · exact hnode

theorem node?_of_evolves (hseparate : Separate files) (hfile : file ∈ files)
    (h : u.locate base (file.path root) = .ok l)
    (hnode : u.node? l = some (.file (.text file.contents)))
    (hevolves : Evolves base root files u v) : v.node? l = some (.file (.text file.contents)) := by
  induction hevolves with
  | refl => exact hnode
  | tail hv hchange ih =>
    exact node?_of_change hseparate hfile ((Evolves.grows hv).locate_ok h) ih hchange

theorem Emitted.evolves (hseparate : Separate files) (hfile : file ∈ files)
    (h : Emitted base root t u file result) (hevolves : Evolves base root files u v) :
    Emitted base root t v file result := by
  have hgrows := hevolves.grows
  cases h with
  | blocked h => exact .blocked (h.evolves hseparate isAbsolute_directoryIn hevolves)
  | refused hdirectory h he =>
    exact .refused (hgrows.isDirectory hdirectory) (hgrows.locate_error h he) he
  | occupied h hnode => exact .occupied (hgrows.locate_ok h) (hgrows.directory hnode)
  | written h hnode =>
    exact .written (hgrows.locate_ok h) (node?_of_evolves hseparate hfile h hnode hevolves)

/-! ## Settled trees -/

theorem Blocked.not_isDirectory (h : Blocked base t u path e) :
    u.isDirectory base path = false := by
  rw [← Bool.not_eq_true, isDirectory_iff]
  rintro ⟨l, hlocate, hnode⟩
  cases h with
  | stuck h | adrift _ _ h => cases h.symm.trans hlocate
  | late h => cases h.after.symm.trans hlocate
  | occupied h hnode' =>
    cases h.symm.trans hlocate
    cases hnode.symm.trans hnode'

theorem Blocked.elim (h : Blocked base t u path e) (hdirectory : u.isDirectory base path = true) :
    False := by
  rw [h.not_isDirectory] at hdirectory
  cases hdirectory

theorem Blocked.node?_ne_none (h : Blocked base t u path e)
    (hlocate : u.locate base path = .ok l) : u.node? l ≠ none := by
  cases h with
  | stuck h | adrift _ _ h => cases h.symm.trans hlocate
  | late h => cases h.after.symm.trans hlocate
  | occupied h hnode =>
    cases h.symm.trans hlocate
    simp [hnode]

theorem Blocked.of_notFound (h : Blocked base t u path e)
    (hlocate : u.locate base path = .error .notFound) :
    Path.isAbsolute path = false ∧ u.node? base = none := by
  cases h with
  | stuck h he =>
    cases h.symm.trans hlocate
    exact absurd rfl he
  | occupied h => cases h.symm.trans hlocate
  | late h => cases h.after.symm.trans hlocate
  | adrift hrelative hbase => exact ⟨hrelative, hbase⟩

theorem Emitted.found (hplain : file.Plain) (h : Emitted base root t u file result)
    (hspelled : Spelled (file.kind.directoryIn root))
    (hup : ns <+: stem root ++ [file.kind.directory])
    (habs : ns = [] → Path.isAbsolute root = true) (hwalk : u.walk (start base root) ns = .ok l) :
    u.node? l ≠ none := by
  intro hnone
  have hlocate := walk_of_none hwalk hnone hup
  rw [← locate_directoryIn hspelled] at hlocate
  have hdirectory : u.isDirectory base (file.kind.directoryIn root) = false := by
    rw [← Bool.not_eq_true, isDirectory_iff]
    rintro ⟨l', hok, hnode⟩
    rcases hlocate with hlocate | hlocate
    · cases hok.symm.trans hlocate
      cases hnode.symm.trans hnone
    · cases hok.symm.trans hlocate
  cases h with
  | refused h => simp [hdirectory] at h
  | occupied h | written h => simp [isDirectory_of_locate hplain h] at hdirectory
  | blocked h =>
    rcases hlocate with hlocate | hlocate
    · exact h.node?_ne_none hlocate hnone
    · obtain ⟨hrelative, hbase⟩ := h.of_notFound hlocate
      rw [isAbsolute_directoryIn] at hrelative
      -- the walk cannot set out from where nothing stands
      cases ns with
      | nil => simp [hrelative] at habs
      | cons name ns =>
        rw [start_of_relative hrelative] at hwalk
        cases hbase.symm.trans (node?_of_walk_cons hwalk)

theorem directory_of_settled (hseparate : Separate files) (hgrows : Grows t w) (h : Grows w u)
    (hu : Evolves base root files t u) (hsettled : Settled base root files t u)
    (hfile : file ∈ files) (hspelled : Spelled (file.kind.directoryIn root))
    (hup : ns <+: stem root ++ [file.kind.directory])
    (habs : ns = [] → Path.isAbsolute root = true) (hwalk : w.walk (start base root) ns = .ok l)
    (hnode : w.node? l = none) : u.node? l = some .directory := by
  have hwalk := h.walk_ok hwalk
  obtain ⟨result, hresult⟩ := hsettled file hfile
  cases hl : u.node? l with
  | none =>
    exact absurd hl
      (hresult.found (hseparate.plain file hfile) hspelled hup habs hwalk)
  | some node =>
    cases node with
    | directory => rfl
    | file c =>
      -- a file that is new is in the place of one of `files`, and none of these is on the way
      rcases hu.of_file hl with hold | hplace
      · cases (hgrows.node?_eq_none hnode).symm.trans hold
      · obtain ⟨other, hother, -, hlocate⟩ := hplace
        have hway : OnTheWay base root files u l := ⟨file, hfile, ns, hup, hwalk⟩
        have hfile' : u.node? l ≠ some .directory := by simp [hl]
        exact absurd rfl (hway.ne (.refl u) (hseparate.plain other hother) hlocate hfile')

theorem file_of_settled (hseparate : Separate files) (hgrows : Grows t w) (h : Grows w u)
    (hu : Evolves base root files t u) (hsettled : Settled base root files t u)
    (hfile : file ∈ files) (hlocate : w.locate base (file.path root) = .ok l)
    (hnode : w.node? l ≠ some .directory) : u.node? l = some (.file (.text file.contents)) := by
  have hplain := hseparate.plain file hfile
  have hlocate' := h.locate_ok hlocate
  obtain ⟨result, hresult⟩ := hsettled file hfile
  cases hresult with
  | blocked hblocked => exact (hblocked.elim (isDirectory_of_locate hplain hlocate')).elim
  | refused _ herror => cases hlocate'.symm.trans herror
  | written hok hl =>
    cases hlocate'.symm.trans hok
    exact hl
  | occupied hok hl =>
    cases hlocate'.symm.trans hok
    -- a directory cannot have come there in the meantime
    rcases hu.of_directory hl with hold | ⟨-, hway⟩
    · exact absurd (hgrows.directory hold) hnode
    · exact absurd rfl (hway.ne h hplain hlocate hnode)

theorem Grows.change (hseparate : Separate files) (hw : Evolves base root files t w)
    (hu : Evolves base root files t u) (hsettled : Settled base root files t u) (h : Grows w u)
    (hchange : Change base root files w v) : Grows v u := by
  cases hchange with
  | directory hfile hspelled hup habs hwalk hnode =>
    exact h.insert_directory (directory_of_settled hseparate hw.grows h hu hsettled hfile hspelled
      hup habs hwalk hnode)
  | file hfile hlocate hnode =>
    exact h.insert_file (file_of_settled hseparate hw.grows h hu hsettled hfile hlocate hnode)

theorem grows_of_settled (hseparate : Separate files) (hw : Evolves base root files t w)
    (hu : Evolves base root files t u) (hsettled : Settled base root files t u) : Grows w u := by
  -- what each change of `w` adds stands in `u` already
  induction hw with
  | refl => exact hu.grows
  | tail hw hchange ih => exact ih.change hseparate hw hu hsettled hchange

theorem Settled.contents (hseparate : Separate files) (hu : Evolves base root files t u)
    (hsettled : Settled base root files t u) (hplace : PlaceOf base root files u l c)
    (hnode : u.node? l = some (.file c')) : c' = c := by
  obtain ⟨file, hfile, rfl, hlocate⟩ := hplace
  have hwritten := file_of_settled hseparate hu.grows (.refl u) hu hsettled hfile hlocate
    (by simp [hnode])
  cases hnode.symm.trans hwritten
  rfl

/-- Settled trees that have come from one tree are the same. -/
theorem eq_of_settled (hseparate : Separate files) (hu : Evolves base root files t u)
    (hw : Evolves base root files t w) (hsettled : Settled base root files t u)
    (hsettled' : Settled base root files t w) : u = w := by
  have hgrows := grows_of_settled hseparate hu hw hsettled'
  have hgrows' := grows_of_settled hseparate hw hu hsettled
  -- the same nodes stand in both, so at most the contents of files differ
  refine ext_node? fun l => ?_
  rcases hl : u.node? l with _ | _ | c
  · exact (hgrows'.node?_eq_none hl).symm
  · exact (hgrows.directory hl).symm
  · obtain ⟨c', hl'⟩ := hgrows.file hl
    rw [hl']
    rcases hu.of_file hl with hold | hplace
    · rcases hw.of_file hl' with hold' | hplace'
      · rw [← hold, ← hold']
      · rw [hsettled.contents hseparate hu (hgrows'.placeOf hplace') hl]
    · rw [hsettled'.contents hseparate hw (hgrows.placeOf hplace) hl']

/-! ## Results differ at most in one way -/

def Obstruction (e : FileError) : Prop :=
  e = .notADirectory ∨ e = .alreadyExists

theorem Blocked.unique (h : Blocked base t u path e) (h' : Blocked base t u path e') :
    e = e' ∨ Late base t u path ∧ Obstruction e ∧ Obstruction e' := by
  -- the lookup in `u` tells the cases apart, except that a path can be stuck where it is late
  cases h with
  | stuck h he =>
    cases h' with
    | stuck h' =>
      cases h.symm.trans h'
      exact .inl rfl
    | late h' =>
      cases h.symm.trans h'.after
      exact .inr ⟨h', .inl rfl, .inr rfl⟩
    | occupied h' => cases h.symm.trans h'
    | adrift _ _ h' =>
      cases h.symm.trans h'
      exact absurd rfl he
  | occupied h =>
    cases h' with
    | occupied | late => exact .inl rfl
    | stuck h' | adrift _ _ h' => cases h.symm.trans h'
  | late h =>
    cases h' with
    | stuck h' =>
      cases h.after.symm.trans h'
      exact .inr ⟨h, .inr rfl, .inl rfl⟩
    | occupied | late => exact .inl rfl
    | adrift _ _ h' => cases h.after.symm.trans h'
  | adrift _ _ h =>
    cases h' with
    | stuck h' he =>
      cases h.symm.trans h'
      exact absurd rfl he
    | occupied h' => cases h.symm.trans h'
    | late h' => cases h.symm.trans h'.after
    | adrift => exact .inl rfl

theorem Emitted.unique (hplain : file.Plain) (h : Emitted base root t u file result)
    (h' : Emitted base root t u file result') : result = result' ∨
      Late base t u (file.kind.directoryIn root) ∧ ∃ e e', Obstruction e ∧ Obstruction e' ∧
        result = .error (.write (file.kind.directoryIn root) e) ∧
        result' = .error (.write (file.kind.directoryIn root) e') := by
  -- the directory of the file is there or it is not, and then its place decides
  cases h with
  | blocked h =>
    cases h' with
    | blocked h' =>
      rcases h.unique h' with rfl | ⟨hlate, he, he'⟩
      · exact .inl rfl
      · exact .inr ⟨hlate, _, _, he, he', rfl, rfl⟩
    | refused hdirectory => exact (h.elim hdirectory).elim
    | occupied h' | written h' => exact (h.elim (isDirectory_of_locate hplain h')).elim
  | refused hdirectory h =>
    cases h' with
    | blocked h' => exact (h'.elim hdirectory).elim
    | refused _ h' =>
      cases h.symm.trans h'
      exact .inl rfl
    | occupied h' | written h' => cases h.symm.trans h'
  | occupied h hnode =>
    cases h' with
    | blocked h' => exact (h'.elim (isDirectory_of_locate hplain h)).elim
    | refused _ h' => cases h.symm.trans h'
    | occupied => exact .inl rfl
    | written h' hnode' =>
      cases h.symm.trans h'
      cases hnode.symm.trans hnode'
  | written h hnode =>
    cases h' with
    | blocked h' => exact (h'.elim (isDirectory_of_locate hplain h)).elim
    | refused _ h' => cases h.symm.trans h'
    | occupied h' hnode' =>
      cases h.symm.trans h'
      cases hnode.symm.trans hnode'
    | written => exact .inl rfl

/-! ## Output roots that do not go up -/

/-- Without going up, no way in a well-formed tree comes to a file behind directories that are
missing. -/
theorem not_late (hseparate : Separate files) (hwell : t.WellFormed) (hroot : ".." ∉ stem root)
    (hu : Evolves base root files t u) : ¬ Late base t u (kind.directoryIn root) := by
  rintro ⟨hbefore, hafter⟩
  have hspelled : Spelled (kind.directoryIn root) :=
    spelled_of_notFound hbefore (join_ne_empty kind.directory_plain.1 kind.directory_plain.2.2)
  rw [locate_directoryIn hspelled] at hbefore hafter
  -- the walk is stopped by a file, which is not new
  obtain ⟨front, name, rest, l, hnames, hwalk, hstop⟩ := exists_of_walk_error hafter
  obtain ⟨c, hfile⟩ := node?_of_step_notADirectory hstop
  have hfront : front <+: stem root := by
    have hup : front <+: stem root ++ [kind.directory] := ⟨name :: rest, hnames.symm⟩
    rcases List.prefix_concat_iff.1 hup with rfl | hfront
    · simp at hnames
    · exact hfront
  have hold : t.node? l = some (.file c) := by
    rcases hu.of_file hfile with hold | ⟨other, hother, -, hlocate⟩
    · exact hold
    · obtain ⟨m, hm, hdirectory⟩ :=
        directory_of_prefix (hseparate.plain other hother) hlocate hfront
      cases hwalk.symm.trans hm
      cases hfile.symm.trans hdirectory
  -- at first the walk did not come that far
  cases hfirst : t.walk (start base root) front with
  | ok m =>
    cases hwalk.symm.trans (hu.grows.walk_ok hfirst)
    rw [hnames, walk_append_ok hfirst, walk_file hold (by simp)] at hbefore
    cases hbefore
  | error e =>
    rw [hnames, walk_append_error hfirst] at hbefore
    cases hbefore
    obtain ⟨front', name', rest', m, rfl, hwalk', hstop'⟩ := exists_of_walk_error hfirst
    have hnone := node?_of_step_notFound hstop'
    have hbelow := hu.grows.walk_ok hwalk'
    rw [walk_append_ok hbelow] at hwalk
    have hrest : ".." ∉ name' :: rest' := fun hmem =>
      hroot (hfront.subset (List.mem_append_right _ hmem))
    have habove := hwell.above (by simp [hold]) (below_of_walk hrest hwalk)
    exact habove hnone

end ModelTypes.FileTree
