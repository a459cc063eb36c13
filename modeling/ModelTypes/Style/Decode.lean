import ModelTypes.Json.Decode
import ModelTypes.Style

/-!
# Styles as JSON

The keys of a style file. What a file leaves out keeps its default.
-/

namespace ModelTypes

def TrailingComma.names : List (String × TrailingComma) :=
  [("none", .none), ("es5", .es5), ("all", .all)]

def Style.decode : Json.Decoder Style :=
  Json.record [
    .of "printWidth" Json.natural fun v s => { s with printWidth := v },
    .of "tabWidth" Json.natural fun v s => { s with tabWidth := v },
    .of "useTabs" Json.bool fun v s => { s with useTabs := v },
    .of "singleQuote" Json.bool fun v s => { s with singleQuote := v },
    .of "semi" Json.bool fun v s => { s with semi := v },
    .of "trailingComma" (Json.variant TrailingComma.names) fun v s => { s with trailingComma := v }]
    {}

def Style.ofText (text : String) : Except Json.Category Style :=
  Json.decode decode text

end ModelTypes
