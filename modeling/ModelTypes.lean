import ModelTypes.Config.Decode
import ModelTypes.Main
import ModelTypes.Proofs.Declaration.Grammar
import ModelTypes.Proofs.Declaration.Literal
import ModelTypes.Proofs.Declaration.Tokens
import ModelTypes.Proofs.Declaration.Types
import ModelTypes.Proofs.Declaration.Braces
import ModelTypes.Proofs.Declaration.Items
import ModelTypes.Proofs.Declaration.Normal
import ModelTypes.Proofs.Declaration.Printing
import ModelTypes.Proofs.Declaration.RoundTrip
import ModelTypes.Proofs.Declaration.NormalFiles
import ModelTypes.Proofs.Template.Builtin
import ModelTypes.Proofs.Json.Quoted
import ModelTypes.Proofs.Document.Denotation
import ModelTypes.Proofs.Introspection.Groups
import ModelTypes.Proofs.Introspection.Declared
import ModelTypes.Proofs.Introspection.Failures
import ModelTypes.Proofs.Path.Ancestors
import ModelTypes.Proofs.Host.Tasks
import ModelTypes.Proofs.Generator.Changes
import ModelTypes.Proofs.Generator.Settled
import ModelTypes.Proofs.Generator.Emission
import ModelTypes.Proofs.Generator.Runs
import ModelTypes.Proofs.Generator.Interleaving
import ModelTypes.Proofs.Generator.Setup
import ModelTypes.Proofs.Generator.Results
import ModelTypes.Proofs.Path.Names
import ModelTypes.Proofs.FileTree.Walks
import ModelTypes.Proofs.Generator.Sites
import ModelTypes.Proofs.Introspection.Contents
import ModelTypes.Proofs.Introspection.Exclusion
import ModelTypes.Proofs.Introspection.ForeignKeys
import ModelTypes.Proofs.Generator.Placement
import ModelTypes.Proofs.Document.Reading
import ModelTypes.Proofs.Generator.Declarations
import ModelTypes.Proofs.Introspection.Comparison
import ModelTypes.Proofs.Introspection.Prefix
import ModelTypes.Proofs.Introspection.Reordering
import ModelTypes.Proofs.Introspection.Inlining
import ModelTypes.Proofs.Declaration.Quoting
import ModelTypes.Proofs.Declaration.Lines
import ModelTypes.Proofs.Declaration.Indentation
import ModelTypes.Proofs.Declaration.Layout
import ModelTypes.Proofs.Declaration.Recognizers
import ModelTypes.Proofs.Declaration.Traces
import ModelTypes.Proofs.Declaration.Rejection
import ModelTypes.Proofs.Declaration.Order
import ModelTypes.Proofs.CommandLine.Effect
import ModelTypes.Proofs.Text.Units
import ModelTypes.Proofs.Declaration.Escapes
import ModelTypes.Proofs.Json.Grammar
import ModelTypes.Proofs.Json.Reading
import ModelTypes.Proofs.Json.Decoding
import ModelTypes.Proofs.Schema.Spelling
import ModelTypes.Proofs.Text.Upper
import ModelTypes.Proofs.Naming.PascalCase
import ModelTypes.Proofs.Schema.Tags
