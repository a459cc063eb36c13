import ModelTypes.Host
import ModelTypes.Template.Builtin
import ModelTypes.Template.Compile

/-!
# Template overrides

A file named for a kind of document replaces the built-in template of that kind.
-/

namespace ModelTypes.Template

inductive LoadError where
  | unreadable (path : Path) (error : FileError)
  | invalid (kind : DocumentKind)
  deriving DecidableEq, Repr

def overridePath (directory : Path) (kind : DocumentKind) : Path :=
  Path.join directory (kind.templateName ++ ".hbs")

/-- The template of a kind, from the directory if it has one. -/
def load {m : Type → Type} [Monad m] [Host m] (directory : Option Path) (kind : DocumentKind) :
    m (Except LoadError Template) := do
  match directory with
  | none => return .ok (builtin kind)
  | some directory =>
    let path := overridePath directory kind
    if ← Host.isFile path then
      match ← Host.read path with
      | .error e => return .error (.unreadable path e)
      | .ok source => return (ofText? source).elim (.error (.invalid kind)) .ok
    else return .ok (builtin kind)

end ModelTypes.Template
