import ModelTypes.ConfigFile

/-!
# Command line flags

Arguments are read from left to right, and the first that cannot be accepted, or that asks for help
or the version, decides. What follows `--` is a formatter command.
-/

namespace ModelTypes

structure Flags where
  schema : Option Path := none
  config : Option Path := none
  output : Option Path := none
  typePrefix : Option String := none
  excludedModels : List String := []
  excludedFields : List String := []
  noTypePerField : Bool := false
  templates : Option Path := none
  formatter : List String := []
  deriving DecidableEq, Repr

inductive UsageError where
  | unknown (argument : String)
  | missingValue (option : String)
  | unexpectedValue (option : String)
  | emptyPath (option : String)
  | repeated (option : String)
  deriving DecidableEq, Repr

def UsageError.message : UsageError → String
  | unknown argument => "unexpected argument '" ++ argument ++ "' found"
  | missingValue option => "a value is required for '" ++ option ++ "' but none was supplied"
  | unexpectedValue option => "unexpected value for '" ++ option ++ "'; no value was expected"
  | emptyPath option => "a value is required for '" ++ option ++ "' but none was supplied"
  | repeated option => "the argument '" ++ option ++ "' cannot be used multiple times"

/-- What a command line asks for in place of a run. -/
inductive Stop where
  | usage (error : UsageError)
  | help
  | version
  deriving DecidableEq, Repr

namespace Flags

inductive Setting where
  | schema
  | config
  | output
  | typePrefix
  | excludeModel
  | excludeField
  | noTypePerField
  | templates
  | help
  | version
  deriving DecidableEq, Repr

namespace Setting

def longNames : List (String × Setting) :=
  [("schema", schema), ("config", config), ("output", output), ("prefix", typePrefix),
   ("exclude-model", excludeModel), ("exclude-field", excludeField),
   ("no-type-per-field", noTypePerField), ("templates", templates), ("help", help),
   ("version", version)]

def shortNames : List (Char × Setting) :=
  [('s', schema), ('c', config), ('o', output), ('h', help), ('V', version)]

def name (s : Setting) : String :=
  "--" ++ ((longNames.find? (·.2 = s)).map (·.1)).getD ""

def takesValue : Setting → Bool
  | noTypePerField | help | version => false
  | _ => true

end Setting

/-! ## Arguments -/

/-- Whether an argument is a setting, and so not the value of the one before it. -/
def isSetting (argument : String) : Bool :=
  argument.startsWith "-" && argument != "-"

/-- The setting that an argument names, with the value written in the same argument. -/
def setting? (argument : String) : Option (Setting × Option String) :=
  match argument.toList with
  | '-' :: '-' :: rest => do
    let name := rest.takeWhile (· ≠ '=')
    let value := (rest.dropWhile (· ≠ '=')).tail?.map String.ofList
    return (← Setting.longNames.lookup (String.ofList name), value)
  | '-' :: c :: rest => do
    let setting ← Setting.shortNames.lookup c
    match setting.takesValue, rest with
    | false, _ | true, [] => return (setting, none)
    | true, '=' :: value => return (setting, some (String.ofList value))
    | true, value => return (setting, some (String.ofList value))
  | _ => none

def once (s : Setting) (old : Option String) (value : String) (set : Option String → Flags) :
    Except Stop Flags :=
  match old with
  | some _ => .error (.usage (.repeated s.name))
  | none => .ok (set (some value))

def oncePath (s : Setting) (old : Option Path) (value : String) (set : Option Path → Flags) :
    Except Stop Flags :=
  if value = "" then .error (.usage (.emptyPath s.name)) else once s old value set

def assign (f : Flags) (s : Setting) (value : String) : Except Stop Flags :=
  match s with
  | .schema => oncePath s f.schema value fun v => { f with schema := v }
  | .config => oncePath s f.config value fun v => { f with config := v }
  | .output => oncePath s f.output value fun v => { f with output := v }
  | .templates => oncePath s f.templates value fun v => { f with templates := v }
  | .typePrefix => once s f.typePrefix value fun v => { f with typePrefix := v }
  | .excludeModel => .ok { f with excludedModels := f.excludedModels ++ [value] }
  | .excludeField => .ok { f with excludedFields := f.excludedFields ++ [value] }
  | .noTypePerField | .help | .version => .error (.usage (.unexpectedValue s.name))

def switch (f : Flags) : Setting → Except Stop Flags
  | .help => .error .help
  | .version => .error .version
  | .noTypePerField =>
    if f.noTypePerField then .error (.usage (.repeated Setting.noTypePerField.name))
    else .ok { f with noTypePerField := true }
  | s => .error (.usage (.missingValue s.name))

def readFrom (f : Flags) : List String → Except Stop Flags
  | [] => .ok f
  | argument :: rest =>
    if argument = "--" then .ok { f with formatter := rest }
    else
      match setting? argument with
      | none => .error (.usage (.unknown argument))
      | some (s, some value) => do readFrom (← f.assign s value) rest
      | some (s, none) =>
        if !s.takesValue then do readFrom (← f.switch s) rest
        else
          match rest with
          | [] => .error (.usage (.missingValue s.name))
          | value :: rest =>
            if isSetting value then .error (.usage (.missingValue s.name))
            else do readFrom (← f.assign s value) rest

/-- Reads a command line. A schema that the environment names is used if no flag gives one. -/
def read (environment : Option String) (arguments : List String) : Except Stop Flags := do
  let f ← readFrom {} arguments
  match f.schema, environment with
  | none, some value => f.assign .schema value
  | _, _ => return f

/-! ## Effect -/

/-- The configuration with what the flags say. Exclusions add to those that are there. -/
def apply (f : Flags) (c : Config) : Config :=
  { c with
    outputPath := f.output.getD c.outputPath
    typePrefix := f.typePrefix.getD c.typePrefix
    excludedModels := c.excludedModels.insertAll f.excludedModels
    excludedFields := c.excludedFields.insertAll f.excludedFields
    typePerField := c.typePerField && !f.noTypePerField
    templatesDir := f.templates.or c.templatesDir
    formatterCommand := if f.formatter = [] then c.formatterCommand else some f.formatter }

end Flags

end ModelTypes
