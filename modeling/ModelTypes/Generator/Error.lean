import ModelTypes.Formatter
import ModelTypes.Introspection
import ModelTypes.Style.Lookup
import ModelTypes.Template.Override
import ModelTypes.Template.Render
import ModelTypes.Text.Displayed

/-!
# Generation errors

A run fails as a whole before anything is written, or document by document.
-/

namespace ModelTypes

def FileError.message : FileError → String
  | notFound => "no such file or directory"
  | notADirectory => "not a directory"
  | isADirectory => "is a directory"
  | alreadyExists => "already exists"
  | notText => "not valid UTF-8"
  | badPath => "path contains a NUL character"
  | nameTooLong => "file name too long"
  | other => "file operation failed"

def StyleError.message : StyleError → String
  | unreadable path error =>
    "Failed to read style file " ++ Text.display path ++ ": " ++ error.message
  | invalid path _ => "Invalid style file " ++ Text.display path

def Template.RenderError.message : Template.RenderError → String
  | missing => "a field is missing"
  | notText => "a text is expected"
  | noItems => "a list is expected"
  | badIndex => "a list needs a number as index"
  | failedCall => "a helper call fails"

def Template.LoadError.message : Template.LoadError → String
  | unreadable path error =>
    "Failed to read template " ++ Text.display path ++ ": " ++ error.message
  | invalid kind => "Invalid template '" ++ kind.templateName ++ "'"

inductive DocumentFailure where
  | render (error : Template.RenderError)
  | format (error : FormatError)
  | write (path : Path) (error : FileError)
  deriving DecidableEq, Repr

def DocumentFailure.message : DocumentFailure → String
  | render error => "template rendering failed: " ++ error.message
  | format error => "formatting failed: " ++ error.message
  | write path error => "failed to write " ++ Text.display path ++ ": " ++ error.message

structure FailedDocument where
  document : String
  failure : DocumentFailure
  deriving DecidableEq, Repr

def FailedDocument.message (d : FailedDocument) : String :=
  d.document ++ ": " ++ d.failure.message

inductive GenerateError where
  | introspection (error : IntrospectionError)
  | template (error : Template.LoadError)
  | formatter (error : FormatError)
  | style (error : StyleError)
  /-- Some of the `total` documents failed. -/
  | documents (total : Nat) (failed : List FailedDocument)
  deriving DecidableEq, Repr

def GenerateError.message : GenerateError → String
  | introspection error => error.message
  | template error => error.message
  | formatter error => "Formatter setup failed: " ++ error.message
  | style error => error.message
  | documents total failed =>
    toString failed.length ++ " of " ++ toString total ++ " documents failed: " ++
      "; ".intercalate (failed.map FailedDocument.message)

end ModelTypes
