import ModelTypes.Config
import ModelTypes.Json.Decode

/-!
# Configurations as JSON

The keys of a generator configuration. What a text leaves out keeps its default.
-/

namespace ModelTypes

def Config.decode : Json.Decoder Config :=
  Json.record [
    .of "outputPath" Json.text fun v c => { c with outputPath := v },
    .of "typePrefix" Json.text fun v c => { c with typePrefix := v },
    .of "excludedModelNames" (Json.list Json.text) fun v c =>
      { c with excludedModels := .ofList v },
    .of "excludedModelFields" (Json.list Json.text) fun v c =>
      { c with excludedFields := .ofList v },
    .of "typePerField" Json.bool fun v c => { c with typePerField := v },
    .of "templatesDir" (Json.optional Json.text) fun v c => { c with templatesDir := v },
    .of "fileExtension" Json.text fun v c => { c with fileExtension := v },
    .of "styleRoot" (Json.optional Json.text) fun v c => { c with styleRoot := v },
    .of "formatterCommand" (Json.optional (Json.list Json.text)) fun v c =>
      { c with formatterCommand := v }]
    {}

def Config.ofText (text : String) : Except Json.Category Config :=
  Json.decode decode text

end ModelTypes
