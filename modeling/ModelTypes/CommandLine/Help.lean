import ModelTypes.CommandLine.Flags

/-!
# Help

The texts that `--help` and `--version` print.
-/

namespace ModelTypes.Help

def versionText : String :=
  "ormtypes 0.1.0\n"

def settings (environment : Option String) : List (String × String) :=
  [("-s, --schema <SCHEMA>",
    "JSON schema dump describing the models [env: ORMTYPES_SCHEMA=" ++ environment.getD "" ++ "]"),
   ("-c, --config <CONFIG>",
    "Configuration file (defaults to ./ormtypes.toml when present)"),
   ("-o, --output <OUTPUT>", "Directory receiving models/ and enums/"),
   ("    --prefix <PREFIX>", "Prefix for every generated type name"),
   ("    --exclude-model <NAME>", "Skip a model entirely (repeatable)"),
   ("    --exclude-field <NAME>", "Skip an attribute on every model (repeatable)"),
   ("    --no-type-per-field", "Inline scalar kinds instead of declaring one alias per field"),
   ("    --templates <DIR>", "Directory with model.hbs / enum.hbs template overrides"),
   ("-h, --help", "Print help"),
   ("-V, --version", "Print version")]

def columns (rows : List (String × String)) : String :=
  let width := (rows.map fun (name, _) => name.length).foldl max 0
  let row (entry : String × String) : String :=
    let (name, purpose) := entry
    "  " ++ name ++ "".pushn ' ' (width - name.length) ++ "  " ++ purpose ++ "\n"
  String.join (rows.map row)

def helpText (environment : Option String) : String :=
  "Generate Flow type definitions from ORM model metadata\n\n" ++
  "Usage: ormtypes [OPTIONS] [-- <FORMATTER>...]\n\n" ++
  "Arguments:\n" ++
  columns [("[FORMATTER]...", "External formatter to pipe output through, given after `--`, " ++
    "e.g. `-- prettier --parser babel`")] ++
  "\nOptions:\n" ++
  columns (settings environment)

end ModelTypes.Help
