import ModelTypes.Config
import ModelTypes.Host
import ModelTypes.Text.Displayed
import ModelTypes.Toml.Reader

/-!
# Configuration files

A TOML file with the options of a generation run and the schema to generate from. Relative paths in
it are relative to the directory that holds it.
-/

namespace ModelTypes

namespace Toml

def Value.text? : Value → Option String
  | text s => some s
  | _ => none

def Value.flag? : Value → Option Bool
  | flag b => some b
  | _ => none

def Value.texts? : Value → Option (List String)
  | array items => items.mapM text?
  | _ => none

/-- The value of a key, or a default if the key is absent; nothing if the value does not fit. -/
def Table.read? (t : Table) (key : String) (decode : Value → Option α) (default : α) : Option α :=
  match t.get? key with
  | none => some default
  | some value => decode value

end Toml

structure ConfigFile where
  schema : Option Path := none
  config : Config := {}
  deriving DecidableEq

namespace ConfigFile

open Toml.Value in
/-- The options in a table; keys that are none of them are ignored. -/
def ofTable? (t : Toml.Table) : Option ConfigFile := do
  let c : Config := {}
  return {
    schema := ← t.read? "schema" (text? · |>.map some) none
    config := {
      outputPath := ← t.read? "outputPath" text? c.outputPath
      typePrefix := ← t.read? "typePrefix" text? c.typePrefix
      excludedModels := ←
        t.read? "excludedModelNames" (texts? · |>.map NameSet.ofList) c.excludedModels
      excludedFields := ←
        t.read? "excludedModelFields" (texts? · |>.map NameSet.ofList) c.excludedFields
      typePerField := ← t.read? "typePerField" flag? c.typePerField
      templatesDir := ← t.read? "templatesDir" (text? · |>.map some) c.templatesDir
      fileExtension := ← t.read? "fileExtension" text? c.fileExtension
      styleRoot := ← t.read? "styleRoot" (text? · |>.map some) c.styleRoot
      formatterCommand := ← t.read? "formatterCommand" (texts? · |>.map some) c.formatterCommand } }

def ofText? (source : String) : Option ConfigFile :=
  Toml.document? source >>= ofTable?

def relativeTo (file : ConfigFile) (base : Path) : ConfigFile where
  schema := file.schema.map (Path.join base)
  config := { file.config with
    outputPath := Path.join base file.config.outputPath
    templatesDir := file.config.templatesDir.map (Path.join base)
    styleRoot := file.config.styleRoot.map (Path.join base) }

def defaultPath : Path := "ormtypes.toml"

inductive LoadError where
  | unreadable (path : Path) (error : FileError)
  | invalid (path : Path)
  deriving DecidableEq, Repr

def LoadError.message : LoadError → String
  | unreadable path _ => "Failed to read config file: " ++ Text.display path
  | invalid path => "Failed to parse config file: " ++ Text.display path

variable {m : Type → Type} [Monad m] [Host m]

def load (path : Path) : m (Except LoadError ConfigFile) := do
  match ← Host.read path with
  | .error e => return .error (.unreadable path e)
  | .ok source =>
    match ofText? source with
    | none => return .error (.invalid path)
    | some file => return .ok (file.relativeTo ((Path.parent? path).getD ""))

/-- Loads the file that is named, or else the default one if it exists. -/
def resolve (path : Option Path) : m (Except LoadError ConfigFile) := do
  match path with
  | some path => load path
  | none => if ← Host.isFile defaultPath then load defaultPath else return .ok {}

end ConfigFile

end ModelTypes
