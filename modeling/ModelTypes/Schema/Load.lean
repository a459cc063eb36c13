import ModelTypes.Host
import ModelTypes.Schema.Decode

/-!
# Schema files

Loading a schema from a JSON file.
-/

namespace ModelTypes

inductive SchemaError where
  | unreadable (path : Path) (error : FileError)
  | invalid (category : Json.Category)
  deriving DecidableEq, Repr

def Schema.ofFile {m : Type → Type} [Monad m] [Host m] (path : Path) :
    m (Except SchemaError Schema) := do
  match ← Host.read path with
  | .error e => return .error (.unreadable path e)
  | .ok text => return (ofText text).mapError .invalid

end ModelTypes
