import ModelTypes.NameSet
import ModelTypes.Path

/-!
# Generator configuration

The options of one generation run and their defaults.
-/

namespace ModelTypes

/-- Audit timestamps, skipped on every model unless configured otherwise. -/
def defaultExcludedFields : NameSet :=
  .ofList ["createdAt", "updatedAt", "deletedAt"]

structure Config where
  outputPath : Path := "flow-typed"
  typePrefix : String := "$"
  excludedModels : NameSet := ∅
  excludedFields : NameSet := defaultExcludedFields
  /-- Whether each scalar field gets an alias of its own. -/
  typePerField : Bool := true
  templatesDir : Option Path := none
  fileExtension : String := "js"
  /-- Where the search for a style file starts; the working directory if absent. -/
  styleRoot : Option Path := none
  /-- The program and arguments that replace the built-in formatter. -/
  formatterCommand : Option (List String) := none
  deriving DecidableEq

namespace Config

def excludeModel (config : Config) (name : String) : Config :=
  { config with excludedModels := config.excludedModels.insert name }

def excludeField (config : Config) (name : String) : Config :=
  { config with excludedFields := config.excludedFields.insert name }

end Config

end ModelTypes
