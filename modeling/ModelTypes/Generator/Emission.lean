import ModelTypes.Generator.Error

/-!
# Emission

A rendered file goes into the directory of its kind below an output root.
-/

namespace ModelTypes

structure RenderedFile where
  kind : DocumentKind
  fileName : String
  contents : String
  deriving DecidableEq, Repr

def DocumentKind.directoryIn (kind : DocumentKind) (root : Path) : Path :=
  Path.join root kind.directory

namespace RenderedFile

def path (file : RenderedFile) (root : Path) : Path :=
  Path.join (file.kind.directoryIn root) file.fileName

/-- Writes a file below an output root, replacing what was there, and gives its path. -/
def emit {m : Type → Type} [Monad m] [Host m] (file : RenderedFile) (root : Path) :
    m (Except DocumentFailure Path) := do
  let directory := file.kind.directoryIn root
  match ← Host.createDirectories directory with
  | .error e => return .error (.write directory e)
  | .ok () =>
    let path := file.path root
    Host.report ("creating file: " ++ file.fileName ++ " path=" ++ path)
    match ← Host.write path file.contents with
    | .error e => return .error (.write path e)
    | .ok () => return .ok path

end RenderedFile

end ModelTypes
