import Mathlib.Data.List.Induction
import Mathlib.Tactic.ByContra
import ModelTypes.FileTree

/-!
# Walks

A path is walked name by name. What a walk finds does not change as the tree grows, unless it found
nothing: directories stay directories and files stay files.
-/

namespace ModelTypes.FileTree

variable {t u v : FileTree} {base here l : Location} {path : Path} {name : String}
  {ns rest : List String}

/-! ## Steps -/

def turn (here : Location) (name : String) : Except FileError Location :=
  if name = "" ∨ name = "." then .ok here
  else if name = ".." then .ok here.dropLast
  else if maxNameBytes < name.utf8ByteSize then .error .nameTooLong
  else .ok (here ++ [name])

theorem step_directory (h : t.node? here = some .directory) (name : String) :
    t.step here name = turn here name := by
  simp only [step, h, turn]

theorem step_file (h : t.node? here = some (.file c)) :
    t.step here name = .error .notADirectory := by
  simp only [step, h]

theorem step_none (h : t.node? here = none) : t.step here name = .error .notFound := by
  simp only [step, h]

theorem step_cases (t : FileTree) (here : Location) (name : String) :
    t.node? here = none ∧ t.step here name = .error .notFound ∨
    (∃ c, t.node? here = some (.file c) ∧ t.step here name = .error .notADirectory) ∨
    t.node? here = some .directory ∧ t.step here name = turn here name := by
  rcases hnode : t.node? here with _ | _ | c
  · exact .inl ⟨rfl, step_none hnode⟩
  · exact .inr (.inr ⟨rfl, step_directory hnode name⟩)
  · exact .inr (.inl ⟨c, rfl, step_file hnode⟩)

theorem node?_of_step (h : t.step here name = .ok l) : t.node? here = some .directory := by
  obtain ⟨-, hstep⟩ | ⟨c, -, hstep⟩ | ⟨hnode, -⟩ := t.step_cases here name
  · cases h.symm.trans hstep
  · cases h.symm.trans hstep
  · exact hnode

theorem turn_error (h : turn here name = .error e) : e = .nameTooLong := by
  unfold turn at h
  split at h
  · cases h
  · split at h
    · cases h
    · split at h
      · cases h
        rfl
      · cases h

theorem node?_of_step_notFound (h : t.step here name = .error .notFound) :
    t.node? here = none := by
  obtain ⟨hnode, -⟩ | ⟨c, -, hstep⟩ | ⟨-, hstep⟩ := t.step_cases here name
  · exact hnode
  · cases h.symm.trans hstep
  · cases turn_error (hstep.symm.trans h)

theorem node?_of_step_notADirectory (h : t.step here name = .error .notADirectory) :
    ∃ c, t.node? here = some (.file c) := by
  obtain ⟨-, hstep⟩ | ⟨c, hnode, -⟩ | ⟨-, hstep⟩ := t.step_cases here name
  · cases h.symm.trans hstep
  · exact ⟨c, hnode⟩
  · cases turn_error (hstep.symm.trans h)

theorem below_of_turn (hname : name ≠ "..") (h : turn here name = .ok l) : here <+: l := by
  unfold turn at h
  by_cases hstay : name = "" ∨ name = "."
  · rw [if_pos hstay] at h
    cases h
    exact List.prefix_rfl
  · rw [if_neg hstay, if_neg hname] at h
    split at h
    · cases h
    · cases h
      exact List.prefix_append _ _

/-! ## Walks -/

def walk (t : FileTree) (here : Location) (ns : List String) : Except FileError Location :=
  ns.foldlM t.step here

@[simp]
theorem walk_nil : t.walk here [] = .ok here := rfl

theorem walk_cons_ok (h : t.step here name = .ok l) :
    t.walk here (name :: ns) = t.walk l ns := by
  simp [walk, h, bind, Except.bind]

theorem walk_cons_error (h : t.step here name = .error e) :
    t.walk here (name :: ns) = .error e := by
  simp [walk, h, bind, Except.bind]

theorem walk_append_ok (h : t.walk here ns = .ok l) :
    t.walk here (ns ++ rest) = t.walk l rest := by
  unfold walk at h
  simp [walk, h, bind, Except.bind]

theorem walk_append_error (h : t.walk here ns = .error e) :
    t.walk here (ns ++ rest) = .error e := by
  unfold walk at h
  simp [walk, h, bind, Except.bind]

theorem walk_singleton : t.walk here [name] = t.step here name := by
  cases h : t.step here name with
  | error e => exact walk_cons_error h
  | ok l => rw [walk_cons_ok h, walk_nil]

theorem node?_of_walk_cons (h : t.walk here (name :: ns) = .ok l) :
    t.node? here = some .directory := by
  cases hstep : t.step here name with
  | error e =>
    rw [walk_cons_error hstep] at h
    cases h
  | ok l' => exact node?_of_step hstep

theorem exists_of_walk_append (h : t.walk here (ns ++ name :: rest) = .ok l) :
    ∃ l', t.walk here ns = .ok l' ∧ t.node? l' = some .directory ∧
      t.walk l' (name :: rest) = .ok l := by
  cases hwalk : t.walk here ns with
  | error e =>
    rw [walk_append_error hwalk] at h
    cases h
  | ok l' =>
    rw [walk_append_ok hwalk] at h
    exact ⟨l', rfl, node?_of_walk_cons h, h⟩

theorem exists_of_walk_error (h : t.walk here ns = .error e) : ∃ front name rest l,
    ns = front ++ name :: rest ∧ t.walk here front = .ok l ∧ t.step l name = .error e := by
  induction ns generalizing here with
  | nil => cases h
  | cons name ns ih =>
    cases hstep : t.step here name with
    | error e' =>
      rw [walk_cons_error hstep] at h
      cases h
      exact ⟨[], name, ns, here, rfl, rfl, hstep⟩
    | ok l =>
      rw [walk_cons_ok hstep] at h
      obtain ⟨front, name', rest, l', hns, hwalk, herror⟩ := ih h
      refine ⟨name :: front, name', rest, l', by rw [hns, List.cons_append], ?_, herror⟩
      rw [walk_cons_ok hstep, hwalk]

theorem below_of_walk (hns : ".." ∉ ns) (h : t.walk here ns = .ok l) : here <+: l := by
  induction ns generalizing here with
  | nil =>
    cases h
    exact List.prefix_rfl
  | cons name ns ih =>
    rw [List.mem_cons, not_or] at hns
    cases hstep : t.step here name with
    | error e =>
      rw [walk_cons_error hstep] at h
      cases h
    | ok l' =>
      rw [walk_cons_ok hstep] at h
      rw [step_directory (node?_of_step hstep)] at hstep
      exact (below_of_turn (Ne.symm hns.1) hstep).trans (ih hns.2 h)

theorem walk_append_directory (h : t.walk here ns = .ok l) (hnode : t.node? l = some .directory)
    (name : String) : t.walk here (ns ++ [name]) = turn l name := by
  rw [walk_append_ok h, walk_singleton, step_directory hnode]

theorem walk_file (hnode : t.node? here = some (.file c)) (hne : ns ≠ []) :
    t.walk here ns = .error .notADirectory := by
  cases ns with
  | nil => exact absurd rfl hne
  | cons name ns => exact walk_cons_error (step_file hnode)

theorem walk_none (hnode : t.node? here = none) (hne : ns ≠ []) :
    t.walk here ns = .error .notFound := by
  cases ns with
  | nil => exact absurd rfl hne
  | cons name ns => exact walk_cons_error (step_none hnode)

theorem walk_of_none (h : t.walk here ns = .ok l) (hnode : t.node? l = none)
    (hup : ns <+: all) : t.walk here all = .ok l ∨ t.walk here all = .error .notFound := by
  obtain ⟨rest, rfl⟩ := hup
  rw [walk_append_ok h]
  by_cases hrest : rest = []
  · exact .inl (by rw [hrest, walk_nil])
  · exact .inr (walk_none hnode hrest)

theorem walk_stays (hnode : t.node? here = some .directory)
    (hns : ∀ name ∈ ns, name = "" ∨ name = ".") : t.walk here ns = .ok here := by
  induction ns with
  | nil => rfl
  | cons name ns ih =>
    obtain ⟨hname, hns⟩ := List.forall_mem_cons.1 hns
    have hstep : t.step here name = .ok here := by
      rw [step_directory hnode]
      exact if_pos hname
    rw [walk_cons_ok hstep, ih hns]

/-! ## Paths -/

/-- Paths that can lead somewhere. -/
def Spelled (path : Path) : Prop :=
  '\x00' ∉ path.toList ∧ path ≠ "" ∧ path.utf8ByteSize ≤ maxPathBytes

def start (base : Location) (path : Path) : Location :=
  if Path.isAbsolute path then [] else base

theorem start_congr (h : Path.isAbsolute path = Path.isAbsolute other) :
    start base path = start base other := by
  unfold start
  rw [h]

theorem start_of_relative (h : Path.isAbsolute path = false) : start base path = base := by
  unfold start
  rw [h]
  rfl

theorem locate_eq (h : Spelled path) :
    t.locate base path = t.walk (start base path) (names path) := by
  obtain ⟨hnul, hne, hlength⟩ := h
  have hcontains : path.toList.contains '\x00' = false := by simpa using hnul
  have hfits : ¬ maxPathBytes < path.utf8ByteSize := by omega
  simp only [locate, hcontains, hne, hfits, if_false, Bool.false_eq_true]
  rfl

theorem locate_of_not_spelled (h : ¬ Spelled path) :
    ∃ e, (e = .notFound → path = "") ∧ ∀ (t : FileTree) base, t.locate base path = .error e := by
  by_cases hnul : path.toList.contains '\x00' = true
  · exact ⟨.badPath, by simp, fun t base => by rw [locate, if_pos hnul]⟩
  by_cases hempty : path = ""
  · exact ⟨.notFound, fun _ => hempty, fun t base => by rw [locate, if_neg hnul, if_pos hempty]⟩
  have hlength : maxPathBytes < path.utf8ByteSize := by
    by_contra hfits
    exact h ⟨by simpa using hnul, hempty, by omega⟩
  refine ⟨.nameTooLong, by simp, fun t base => ?_⟩
  rw [locate, if_neg hnul, if_neg hempty, if_pos hlength]

theorem spelled_of_locate (h : t.locate base path = .ok l) : Spelled path := by
  by_contra hspelled
  obtain ⟨e, -, he⟩ := locate_of_not_spelled hspelled
  cases h.symm.trans (he t base)

theorem spelled_of_notFound (h : t.locate base path = .error .notFound) (hne : path ≠ "") :
    Spelled path := by
  by_contra hspelled
  obtain ⟨e, hempty, he⟩ := locate_of_not_spelled hspelled
  cases h.symm.trans (he t base)
  exact hne (hempty rfl)

/-! ## Growth -/

/-- What stands in the first tree stands in the second, files perhaps with other contents. -/
structure Grows (t u : FileTree) : Prop where
  directory : ∀ {l}, t.node? l = some .directory → u.node? l = some .directory
  file : ∀ {l c}, t.node? l = some (.file c) → ∃ c', u.node? l = some (.file c')

theorem Grows.refl (t : FileTree) : Grows t t :=
  ⟨fun h => h, fun h => ⟨_, h⟩⟩

theorem Grows.trans (h : Grows t u) (h' : Grows u v) : Grows t v := by
  refine ⟨fun hl => h'.directory (h.directory hl), fun hl => ?_⟩
  obtain ⟨c, hc⟩ := h.file hl
  exact h'.file hc

theorem Grows.node?_eq_none (h : Grows t u) (hl : u.node? l = none) : t.node? l = none := by
  cases hnode : t.node? l with
  | none => rfl
  | some node =>
    cases node with
    | directory => cases hl.symm.trans (h.directory hnode)
    | file c =>
      obtain ⟨c', hc'⟩ := h.file hnode
      cases hl.symm.trans hc'

theorem grows_insert_directory (h : t.node? l = none) : Grows t (t.insert l .directory) := by
  constructor
  · intro l' hl'
    rw [node?_insert]
    split
    · rfl
    · exact hl'
  · intro l' c hl'
    refine ⟨c, ?_⟩
    have hne : l ≠ l' := by
      rintro rfl
      cases h.symm.trans hl'
    rw [node?_insert, if_neg hne, hl']

theorem grows_insert_file (h : t.node? l ≠ some .directory) : Grows t (t.insert l (.file c)) := by
  constructor
  · intro l' hl'
    have hne : l ≠ l' := by
      rintro rfl
      exact h hl'
    rw [node?_insert, if_neg hne, hl']
  · intro l' c' hl'
    rw [node?_insert]
    split
    · exact ⟨c, rfl⟩
    · exact ⟨c', hl'⟩

theorem Grows.insert_directory (h : Grows t u) (hl : u.node? l = some .directory) :
    Grows (t.insert l .directory) u := by
  constructor
  · intro l' hl'
    rw [node?_insert] at hl'
    split at hl'
    · next heq => rwa [← heq]
    · exact h.directory hl'
  · intro l' c hl'
    rw [node?_insert] at hl'
    split at hl'
    · cases hl'
    · exact h.file hl'

theorem Grows.insert_file (h : Grows t u) (hl : u.node? l = some (.file c)) :
    Grows (t.insert l (.file c')) u := by
  constructor
  · intro l' hl'
    rw [node?_insert] at hl'
    split at hl'
    · cases hl'
    · exact h.directory hl'
  · intro l' c'' hl'
    rw [node?_insert] at hl'
    split at hl'
    · next heq => exact ⟨c, by rwa [← heq]⟩
    · exact h.file hl'

theorem Grows.step_eq (h : Grows t u) (hstep : t.step here name ≠ .error .notFound) :
    u.step here name = t.step here name := by
  obtain ⟨-, hnone⟩ | ⟨c, hnode, hfile⟩ | ⟨hnode, hturn⟩ := t.step_cases here name
  · exact absurd hnone hstep
  · obtain ⟨c', hc'⟩ := h.file hnode
    rw [hfile, step_file hc']
  · rw [hturn, step_directory (h.directory hnode)]

theorem Grows.walk_eq (h : Grows t u) (hwalk : t.walk here ns ≠ .error .notFound) :
    u.walk here ns = t.walk here ns := by
  induction ns generalizing here with
  | nil => rfl
  | cons name ns ih =>
    have hstep : t.step here name ≠ .error .notFound := by
      intro hnone
      exact hwalk (walk_cons_error hnone)
    have heq := h.step_eq hstep
    cases hname : t.step here name with
    | error e => rw [walk_cons_error hname, walk_cons_error (heq.trans hname)]
    | ok l =>
      rw [walk_cons_ok hname] at hwalk ⊢
      rw [walk_cons_ok (heq.trans hname), ih hwalk]

theorem Grows.walk_ok (h : Grows t u) (hwalk : t.walk here ns = .ok l) :
    u.walk here ns = .ok l := by
  rw [h.walk_eq, hwalk]
  simp [hwalk]

/-- The way to a path is the same in a larger tree, if it did not end where nothing stood. -/
theorem Grows.locate_eq (h : Grows t u) (hlocate : t.locate base path ≠ .error .notFound) :
    u.locate base path = t.locate base path := by
  by_cases hspelled : Spelled path
  · rw [FileTree.locate_eq hspelled] at hlocate ⊢
    rw [FileTree.locate_eq hspelled, h.walk_eq hlocate]
  · obtain ⟨e, -, he⟩ := locate_of_not_spelled hspelled
    rw [he, he]

theorem Grows.locate_ok (h : Grows t u) (hlocate : t.locate base path = .ok l) :
    u.locate base path = .ok l := by
  rw [h.locate_eq, hlocate]
  simp [hlocate]

theorem Grows.locate_error (h : Grows t u) (hlocate : t.locate base path = .error e)
    (he : e ≠ .notFound) : u.locate base path = .error e := by
  rw [h.locate_eq, hlocate]
  simpa [hlocate] using he

theorem Grows.locate_notFound (h : Grows t u) (hlocate : u.locate base path = .error .notFound) :
    t.locate base path = .error .notFound := by
  by_contra hne
  exact hne ((h.locate_eq hne).symm.trans hlocate)

/-! ## Operations -/

theorem isDirectory_iff : t.isDirectory base path = true ↔
    ∃ l, t.locate base path = .ok l ∧ t.node? l = some .directory := by
  unfold isDirectory find
  cases t.locate base path with
  | error e => simp [bind, Except.bind]
  | ok l =>
    rcases hnode : t.node? l with _ | _ | c
    · simp [bind, Except.bind, hnode]
    · simp [bind, Except.bind, hnode]
    · by_cases hslash : endsInSlash path = true <;> simp [bind, Except.bind, hnode, hslash]

theorem Grows.isDirectory (h : Grows t u) (hdir : t.isDirectory base path = true) :
    u.isDirectory base path = true := by
  obtain ⟨l, hlocate, hnode⟩ := isDirectory_iff.1 hdir
  exact isDirectory_iff.2 ⟨l, h.locate_ok hlocate, h.directory hnode⟩

theorem createDirectory_ok_iff : t.createDirectory base path = .ok u ↔
    ∃ l, t.locate base path = .ok l ∧ t.node? l = none ∧ u = t.insert l .directory := by
  unfold createDirectory
  cases t.locate base path with
  | error e => simp [bind, Except.bind]
  | ok l => cases hnode : t.node? l <;> simp [bind, Except.bind, hnode, eq_comm]

theorem createDirectory_error_iff : t.createDirectory base path = .error e ↔
    t.locate base path = .error e ∨
      e = .alreadyExists ∧ ∃ l node, t.locate base path = .ok l ∧ t.node? l = some node := by
  unfold createDirectory
  cases t.locate base path with
  | error e => simp [bind, Except.bind]
  | ok l => cases hnode : t.node? l <;> simp [bind, Except.bind, hnode, eq_comm]

theorem write_ok_iff : t.write base path c = .ok u ↔
    ∃ l, t.locate base path = .ok l ∧ endsInSlash path = false ∧ t.node? l ≠ some .directory ∧
      u = t.insert l (.file c) := by
  unfold write
  cases t.locate base path with
  | error e => simp [bind, Except.bind]
  | ok l =>
    by_cases hslash : endsInSlash path = true <;> by_cases hnode : t.node? l = some .directory <;>
      simp [bind, Except.bind, hslash, hnode, @eq_comm _ u]

theorem write_error_iff : t.write base path c = .error e ↔
    t.locate base path = .error e ∨ e = .isADirectory ∧ ∃ l, t.locate base path = .ok l ∧
      (endsInSlash path = true ∨ t.node? l = some .directory) := by
  unfold write
  cases t.locate base path with
  | error e => simp [bind, Except.bind]
  | ok l =>
    by_cases hslash : endsInSlash path = true <;> by_cases hnode : t.node? l = some .directory <;>
      simp [bind, Except.bind, hslash, hnode, @eq_comm _ e]

theorem read_ok_iff : t.read base path = .ok s ↔
    ∃ l, t.locate base path = .ok l ∧ t.node? l = some (.file (.text s)) ∧
      endsInSlash path = false := by
  unfold read find
  cases t.locate base path with
  | error e => simp [bind, Except.bind]
  | ok l =>
    rcases hnode : t.node? l with _ | _ | c
    · simp [bind, Except.bind, hnode]
    · simp [bind, Except.bind, hnode]
    · by_cases hslash : endsInSlash path = true <;> cases c <;>
        simp [bind, Except.bind, hnode, hslash]

/-! ## Well-formed trees -/

/-- The root is a directory, and what stands below it stands in directories. -/
structure WellFormed (t : FileTree) : Prop where
  root : t.node? [] = some .directory
  parent : ∀ {l name}, t.node? (l ++ [name]) ≠ none → t.node? l = some .directory

theorem wellFormed_empty : (∅ : FileTree).WellFormed := by
  have hnode (l) : (∅ : FileTree).node? l = if [] = l then some .directory else none := by
    show (FileTree.insert ⟨∅⟩ [] .directory).node? l = _
    rw [node?_insert]
    rfl
  constructor
  · rw [hnode, if_pos rfl]
  · intro l name h
    simp [hnode] at h

theorem WellFormed.above (h : t.WellFormed) (hl : t.node? l ≠ none) (hup : here <+: l) :
    t.node? here ≠ none := by
  obtain ⟨below, rfl⟩ := hup
  induction below using List.reverseRecOn with
  | nil => simpa using hl
  | append_singleton below name ih =>
    rw [← List.append_assoc] at hl
    refine ih ?_
    rw [h.parent hl]
    simp

end ModelTypes.FileTree
