import ModelTypes.CommandLine.Help
import ModelTypes.Generator
import ModelTypes.Schema.Load

/-!
# The program

The flags and the configuration file say what to generate and from which schema.
-/

namespace ModelTypes

inductive ProgramError where
  | config (error : ConfigFile.LoadError)
  | noSchema
  | schema (path : Path) (error : SchemaError)
  | generation (error : GenerateError)
  deriving DecidableEq, Repr

def ProgramError.message : ProgramError → String
  | config error => error.message
  | noSchema => "No schema given: pass --schema or set `schema` in " ++ ConfigFile.defaultPath
  | schema path _ => "Failed to load schema: " ++ Text.display path
  | generation _ => "Generation failed"

def ProgramError.cause? : ProgramError → Option String
  | generation error => some error.message
  | schema _ (.unreadable _ error) => some error.message
  | config (.unreadable _ error) => some error.message
  | _ => none

namespace Program

variable {m : Type → Type} [Monad m] [Host m]

def run (flags : Flags) : m (Except ProgramError Unit) := ExceptT.run do
  let file ← ExceptT.mk do return (← ConfigFile.resolve flags.config).mapError .config
  let some path := flags.schema.or file.schema | throw .noSchema
  let config := flags.apply file.config
  let schema ← ExceptT.mk do return (← Schema.ofFile path).mapError (.schema path)
  ExceptT.lift (Host.report ("generating type definitions models=" ++
    toString schema.models.length ++ " output=" ++ config.outputPath))
  ExceptT.mk do return (← generate (some schema) config).mapError .generation

structure Exit where
  code : Nat
  output : String := ""
  error : Option String := none
  deriving DecidableEq, Repr

def failureExit (e : ProgramError) : Exit where
  code := 1
  error := some ("Error: " ++ e.message ++
    (e.cause?.map ("\n\nCaused by:\n    " ++ ·)).getD "")

def stopExit (environment : Option String) : Stop → Exit
  | .help => { code := 0, output := Help.helpText environment }
  | .version => { code := 0, output := Help.versionText }
  | .usage e => { code := 2, error := some ("error: " ++ e.message) }

def schemaVariable : String := "ORMTYPES_SCHEMA"

/-- The program, given its arguments and the value of the schema variable. -/
def execute (environment : Option String) (arguments : List String) : m Exit := do
  match Flags.read environment arguments with
  | .error stop => return stopExit environment stop
  | .ok flags =>
    match ← run flags with
    | .ok () => return { code := 0 }
    | .error e => return failureExit e

end Program

end ModelTypes
