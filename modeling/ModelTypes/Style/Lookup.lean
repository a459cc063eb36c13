import ModelTypes.Host
import ModelTypes.Style.Decode

/-!
# Style files

The style of a directory is that of the nearest style file in it or above it.
-/

namespace ModelTypes

inductive StyleError where
  | unreadable (path : Path) (error : FileError)
  | invalid (path : Path) (category : Json.Category)
  deriving DecidableEq, Repr

variable {m : Type → Type} [Monad m] [Host m]

def Host.firstFile? : List Path → m (Option Path)
  | [] => return none
  | path :: paths => do
    if ← Host.isFile path then return some path else firstFile? paths

namespace Style

def fileNames : List String := [".prettierrc", ".prettierrc.json"]

/-- Where the style of a directory is looked for, in order. -/
def candidates (directory : Path) : List Path :=
  (Path.ancestors directory).flatMap fun above => fileNames.map (Path.join above)

def ofFile (path : Path) : m (Except StyleError Style) := do
  match ← Host.read path with
  | .error e => return .error (.unreadable path e)
  | .ok text => return (ofText text).mapError (.invalid path)

/-- The style of a directory; the default style if there is no file. -/
def resolve (directory : Path) : m (Except StyleError Style) := do
  match ← Host.firstFile? (candidates directory) with
  | some path => ofFile path
  | none => return .ok {}

end Style

end ModelTypes
