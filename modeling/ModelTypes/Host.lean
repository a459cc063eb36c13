import ModelTypes.FileTree

/-!
# Hosts

What a run asks of the machine it works on: files, the working directory and a log. A sandbox
answers from a file tree of its own.
-/

namespace ModelTypes

class Host (m : Type → Type) where
  read : Path → m (Except FileError String)
  isFile : Path → m Bool
  createDirectories : Path → m (Except FileError Unit)
  write : Path → String → m (Except FileError Unit)
  workingDirectory : m Path
  report : String → m Unit

structure Sandbox where
  tree : FileTree := ∅
  workingDirectory : Location := []
  /-- What was reported, the latest last. -/
  reports : List String := []
  deriving DecidableEq

def Location.path (location : Location) : Path :=
  "/" ++ "/".intercalate location

instance : Host (StateM Sandbox) where
  read path := do
    let s ← get
    return s.tree.read s.workingDirectory path
  isFile path := do
    let s ← get
    return s.tree.isFile s.workingDirectory path
  createDirectories path := modifyGet fun s =>
    let (result, tree) := s.tree.createDirectories s.workingDirectory path
    (result, { s with tree })
  write path text := modifyGet fun s =>
    match s.tree.write s.workingDirectory path (.text text) with
    | .ok tree => (.ok (), { s with tree })
    | .error e => (.error e, s)
  workingDirectory := return (← get).workingDirectory.path
  report line := modify fun s => { s with reports := s.reports ++ [line] }

end ModelTypes
