import ModelTypes.Generator.Emission

/-!
# Generators

A generator is a configuration with its templates loaded and its formatter chosen. A run introspects
the models first, and without errors renders, formats and writes each document on its own, so that
one that fails does not stop the others.
-/

namespace ModelTypes

structure Generator where
  config : Config
  template : DocumentKind → Template
  format : Formatter

namespace Generator

/-! ## Single documents -/

def fileName (g : Generator) (d : Document) : String :=
  d.typeName ++ "." ++ g.config.fileExtension

def render (g : Generator) (d : Document) : Except DocumentFailure RenderedFile := do
  let raw ← ((g.template d.kind).renderDocument d).mapError .render
  let contents ← (g.format (String.ofList raw)).mapError .format
  return { kind := d.kind, fileName := g.fileName d, contents }

def plan (g : Generator) (models : List Model) : Except GenerateError (List Document) :=
  (introspect g.config models).mapError .introspection

variable {m : Type → Type} [Monad m] [Host m]

def process (g : Generator) (d : Document) : m (Except DocumentFailure Path) :=
  match g.render d with
  | .error e => return .error e
  | .ok file => file.emit g.config.outputPath

/-! ## Runs -/

def formatterOf (config : Config) : m (Except GenerateError Formatter) := do
  match config.formatterCommand with
  | some command => return (Formatter.ofCommandLine command).mapError .formatter
  | none =>
    let root ← match config.styleRoot with
      | some root => pure root
      | none => Host.workingDirectory
    return (← Style.resolve root).mapError .style |>.map Formatter.ofStyle

def ofConfig (config : Config) : m (Except GenerateError Generator) := ExceptT.run do
  let loadTemplate (kind : DocumentKind) : ExceptT GenerateError m Template :=
    ExceptT.mk do return (← Template.load config.templatesDir kind).mapError .template
  let model ← loadTemplate .model
  let enum ← loadTemplate .enum
  let format ← ExceptT.mk (formatterOf config)
  let template : DocumentKind → Template
    | .model => model
    | .enum => enum
  return { config, template, format }

def successes (results : List (Except ε α)) : List α :=
  results.filterMap Except.toOption

def failures (results : List (Document × Except DocumentFailure Path)) : List FailedDocument :=
  results.filterMap fun
    | (d, .error failure) => some ⟨d.typeName, failure⟩
    | (_, .ok _) => none

def conclude (results : List (Document × Except DocumentFailure Path)) :
    Except GenerateError (List Path) :=
  match failures results with
  | [] => .ok (successes (results.map Prod.snd))
  | failed => .error (.documents results.length failed)

def run (g : Generator) (models : List Model) : m (Except GenerateError (List Path)) := do
  match g.plan models with
  | .error e => return .error e
  | .ok documents =>
    let results ← documents.mapM fun d => return (d, ← g.process d)
    let result := conclude results
    if let .ok paths := result then
      Host.report ("generation complete count=" ++ toString paths.length ++ " output=" ++
        g.config.outputPath)
    return result

end Generator

/-- Generates the documents of a schema. Without models there is nothing to do. -/
def generate {m : Type → Type} [Monad m] [Host m] (schema : Option Schema) (config : Config) :
    m (Except GenerateError Unit) := ExceptT.run do
  match schema with
  | none | some ⟨[]⟩ => return
  | some ⟨models⟩ =>
    let g ← ExceptT.mk (Generator.ofConfig config)
    let _ ← ExceptT.mk (g.run models)

end ModelTypes
