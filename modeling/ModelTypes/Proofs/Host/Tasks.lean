import Mathlib.Data.List.Forall2
import Mathlib.Logic.Relation
import ModelTypes.Host

/-!
# Tasks

A task is a program cut at its system calls, so that several tasks can take turns on one machine.
Creating a directory with those above it takes many calls, between which other tasks may run.
-/

namespace ModelTypes

inductive Call where
  | read (path : Path)
  | isFile (path : Path)
  | isDirectory (path : Path)
  | createDirectory (path : Path)
  | write (path : Path) (text : String)
  | workingDirectory
  | report (line : String)

namespace Call

def Response : Call → Type
  | read _ => Except FileError String
  | isFile _ | isDirectory _ => Bool
  | createDirectory _ | write _ _ => Except FileError Unit
  | workingDirectory => Path
  | report _ => Unit

def settle (s : Sandbox) : Except FileError FileTree → Except FileError Unit × Sandbox
  | .ok tree => (.ok (), { s with tree })
  | .error e => (.error e, s)

def perform (s : Sandbox) : (c : Call) → c.Response × Sandbox
  | read path => (s.tree.read s.workingDirectory path, s)
  | isFile path => (s.tree.isFile s.workingDirectory path, s)
  | isDirectory path => (s.tree.isDirectory s.workingDirectory path, s)
  | createDirectory path => settle s (s.tree.createDirectory s.workingDirectory path)
  | write path text => settle s (s.tree.write s.workingDirectory path (.text text))
  | workingDirectory => (s.workingDirectory.path, s)
  | report line => ((), { s with reports := s.reports ++ [line] })

end Call

inductive Task (α : Type) where
  | done (a : α)
  | call (c : Call) (next : c.Response → Task α)

namespace Task

variable {α β : Type}

def bind : Task α → (α → Task β) → Task β
  | done a, f => f a
  | call c next, f => call c fun response => (next response).bind f

instance : Monad Task where
  pure := done
  bind := bind

def unlessDirectory (path : Path) (e : FileError) : Task (Except FileError Unit) :=
  call (.isDirectory path) fun (there : Bool) => done (if there then .ok () else .error e)

def createFrom : List Path → Task (Except FileError Unit)
  | [] => done (.error .other)
  | path :: above =>
    if path = "" then done (.ok ())
    else
      call (.createDirectory path) fun
        | .ok () => done (.ok ())
        | .error .notFound => (createFrom above).bind fun
          | .ok () => call (.createDirectory path) fun
            | .ok () => done (.ok ())
            | .error e => unlessDirectory path e
          | .error e => done (.error e)
        | .error e => unlessDirectory path e

instance : Host Task where
  read path := call (.read path) done
  isFile path := call (.isFile path) done
  createDirectories path := createFrom (Path.ancestors path)
  write path text := call (.write path text) done
  workingDirectory := call .workingDirectory done
  report line := call (.report line) done

/-! ## Running a task alone -/

def run : Task α → Sandbox → α × Sandbox
  | done a, s => (a, s)
  | call c next, s => (next (c.perform s).1).run (c.perform s).2

theorem run_bind (x : Task α) (f : α → Task β) (s : Sandbox) :
    (x.bind f).run s = (f (x.run s).1).run (x.run s).2 := by
  induction x generalizing s with
  | done a => rfl
  | call c next ih => exact ih _ _

theorem run_unlessDirectory (path : Path) (e : FileError) (s : Sandbox) :
    (unlessDirectory path e).run s =
      (if s.tree.isDirectory s.workingDirectory path then .ok () else .error e, s) := rfl

theorem run_createFrom (paths : List Path) (s : Sandbox) : (createFrom paths).run s =
    ((FileTree.createFrom s.workingDirectory paths s.tree).1,
      { s with tree := (FileTree.createFrom s.workingDirectory paths s.tree).2 }) := by
  induction paths generalizing s with
  | nil => rfl
  | cons path above ih =>
    unfold createFrom FileTree.createFrom
    split
    · rfl
    · simp only [run, Call.perform]
      cases hcreate : s.tree.createDirectory s.workingDirectory path with
      | ok t => rfl
      | error e =>
        cases e with
        | notFound =>
          simp only [Call.settle, run_bind, ih]
          rcases FileTree.createFrom s.workingDirectory above s.tree with ⟨e | _, t⟩
          · rfl
          · simp only [run, Call.perform]
            cases hagain : t.createDirectory s.workingDirectory path with
            | ok t' => rfl
            | error e =>
              simp only [Call.settle, run_unlessDirectory]
              split <;> rfl
        | _ =>
          simp only [Call.settle, run_unlessDirectory]
          split <;> rfl

/-- A task that runs alone does what a program on the sandbox does. -/
def Agrees (x : Task α) (x' : StateM Sandbox α) : Prop :=
  ∀ s, x.run s = x' s

theorem Agrees.bind {x : Task α} {x' : StateM Sandbox α} {f : α → Task β}
    {f' : α → StateM Sandbox β} (hx : Agrees x x') (hf : ∀ a, Agrees (f a) (f' a)) :
    Agrees (x >>= f) (x' >>= f') := by
  intro s
  refine (run_bind x f s).trans ?_
  rw [hx]
  exact hf _ _

theorem agrees_pure (a : α) : Agrees (pure a : Task α) (pure a) := fun _ => rfl

theorem agrees_createDirectories (path : Path) :
    Agrees (Host.createDirectories path : Task _) (Host.createDirectories path) :=
  fun s => run_createFrom _ s

theorem agrees_write (path : Path) (text : String) :
    Agrees (Host.write path text : Task _) (Host.write path text) := by
  intro s
  show Call.settle s (s.tree.write s.workingDirectory path (.text text)) =
    match s.tree.write s.workingDirectory path (.text text) with
    | .ok tree => (.ok (), { s with tree })
    | .error e => (.error e, s)
  cases s.tree.write s.workingDirectory path (.text text) <;> rfl

theorem agrees_report (line : String) : Agrees (Host.report line : Task _) (Host.report line) :=
  fun _ => rfl

/-! ## Tasks that take turns -/

/-- Some task makes its next call. -/
inductive Step : Sandbox × List (Task α) → Sandbox × List (Task α) → Prop
  | call (s : Sandbox) (before : List (Task α)) (c : Call) (next : c.Response → Task α)
      (after : List (Task α)) :
      Step (s, before ++ .call c next :: after)
        ((c.perform s).2, before ++ next (c.perform s).1 :: after)

/-- The tasks, started together, have all come to an end, with the given results. -/
def Interleaving (s : Sandbox) (tasks : List (Task α)) (s' : Sandbox) (results : List α) : Prop :=
  Relation.ReflTransGen Step (s, tasks) (s', results.map done)

theorem steps_run (x : Task α) (s : Sandbox) (before after : List (Task α)) :
    Relation.ReflTransGen Step (s, before ++ x :: after)
      ((x.run s).2, before ++ done (x.run s).1 :: after) := by
  induction x generalizing s with
  | done a => exact .refl
  | call c next ih => exact .head (.call s before c next after) (ih _ _)

theorem steps_mapM {f : β → Task α} {g : β → StateM Sandbox α} (h : ∀ b, Agrees (f b) (g b))
    (l : List β) (s : Sandbox) (before : List (Task α)) :
    Relation.ReflTransGen Step (s, before ++ l.map f)
      ((l.mapM g s).2, before ++ (l.mapM g s).1.map done) := by
  induction l generalizing s before with
  | nil => exact .refl
  | cons b l ih =>
    have hfirst := steps_run (f b) s before (l.map f)
    have hrest := ih ((f b).run s).2 (before ++ [done ((f b).run s).1])
    rw [List.append_assoc, List.append_assoc] at hrest
    rw [List.mapM_cons, List.map_cons]
    refine hfirst.trans ?_
    rw [h b] at hrest ⊢
    exact hrest

theorem interleaving_mapM {f : β → Task α} {g : β → StateM Sandbox α}
    (h : ∀ b, Agrees (f b) (g b)) (l : List β) (s : Sandbox) :
    Interleaving s (l.map f) (l.mapM g s).2 (l.mapM g s).1 :=
  steps_mapM h l s []

/-! ## What tasks do while others run

A task keeps to some change of the sandbox if each of its calls does. Its result may be relied on
however often the sandbox is changed that way in between. -/

/-- Whatever has changed within `R` before each of its calls, a task changes the sandbox within `R`
only, and ends with a result that satisfies `Q` from then on. -/
def Always (R : Sandbox → Sandbox → Prop) (Q : α → Sandbox → Prop) : Task α → Sandbox → Prop
  | done a, s => ∀ s', R s s' → Q a s'
  | call c next, s => ∀ s', R s s' →
      R s' (c.perform s').2 ∧ Always R Q (next (c.perform s').1) (c.perform s').2

variable {R : Sandbox → Sandbox → Prop} {Q : α → Sandbox → Prop} {P : β → Sandbox → Prop}

theorem Always.mono (htrans : ∀ s s' s'', R s s' → R s' s'' → R s s'') {x : Task α}
    (h : Always R Q x s) (hs : R s s') : Always R Q x s' := by
  cases x with
  | done a => exact fun s'' hs' => h s'' (htrans _ _ _ hs hs')
  | call c next => exact fun s'' hs' => h s'' (htrans _ _ _ hs hs')

theorem Always.imp {Q' : α → Sandbox → Prop} {x : Task α} (h : Always R Q x s)
    (himp : ∀ a s', Q a s' → Q' a s') : Always R Q' x s := by
  induction x generalizing s with
  | done a => exact fun s' hs => himp a s' (h s' hs)
  | call c next ih =>
    intro s' hs
    obtain ⟨hperform, hnext⟩ := h s' hs
    exact ⟨hperform, ih _ hnext⟩

theorem Always.bind (hrefl : ∀ s, R s s) {x : Task α} {f : α → Task β} (h : Always R Q x s)
    (hf : ∀ a s', Q a s' → Always R P (f a) s') : Always R P (x.bind f) s := by
  induction x generalizing s with
  | done a => exact hf a s (h s (hrefl s))
  | call c next ih =>
    intro s' hs
    obtain ⟨hperform, hnext⟩ := h s' hs
    exact ⟨hperform, ih _ hnext⟩

section

variable {γ : Type} {l : List γ} {tasks : List (Task α)} {Q : γ → α → Sandbox → Prop}
  (hrefl : ∀ s, R s s) (htrans : ∀ s s' s'', R s s' → R s' s'' → R s s'')

include hrefl htrans

theorem Always.call {before : List (Task α)} {c : Call} {next : c.Response → Task α}
    (h : List.Forall₂ (fun b x => Always R (Q b) x s) l (before ++ .call c next :: after)) :
    R s (c.perform s).2 ∧ List.Forall₂ (fun b x => Always R (Q b) x (c.perform s).2) l
      (before ++ next (c.perform s).1 :: after) := by
  -- the others may rely on what they could rely on before
  induction before generalizing l with
  | nil =>
    cases h with
    | cons hcall hafter =>
      obtain ⟨hR, hnext⟩ := hcall s (hrefl s)
      exact ⟨hR, .cons hnext (hafter.imp fun _ _ hx => hx.mono htrans hR)⟩
  | cons x before ih =>
    cases h with
    | cons hx hrest =>
      obtain ⟨hR, hrest⟩ := ih hrest
      exact ⟨hR, .cons (hx.mono htrans hR) hrest⟩

theorem Always.steps (h : List.Forall₂ (fun b x => Always R (Q b) x s) l tasks)
    (hsteps : Relation.ReflTransGen Step (s, tasks) state) :
    R s state.1 ∧ List.Forall₂ (fun b x => Always R (Q b) x state.1) l state.2 := by
  induction hsteps with
  | refl => exact ⟨hrefl s, h⟩
  | tail _ hstep ih =>
    obtain ⟨hR, h⟩ := ih
    cases hstep with
    | call s before c next after =>
      obtain ⟨hcall, h⟩ := Always.call hrefl htrans h
      exact ⟨htrans _ _ _ hR hcall, h⟩

theorem Always.interleaving (h : List.Forall₂ (fun b x => Always R (Q b) x s) l tasks)
    (hrun : Interleaving s tasks s' results) :
    R s s' ∧ List.Forall₂ (fun b a => Q b a s') l results := by
  obtain ⟨hR, h⟩ := Always.steps hrefl htrans h hrun
  refine ⟨hR, (List.forall₂_map_right_iff.1 h).imp ?_⟩
  intro b a hdone
  exact hdone s' (hrefl s')

end

end Task

end ModelTypes
