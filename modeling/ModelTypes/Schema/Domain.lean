import ModelTypes.Text.Blank

/-!
# Value domains

A column's raw type tag, such as `STRING(255)`, is reduced to a value domain, and a domain to the
kind of the generated field. A tag's parameter list, the blanks around it and the case of its ASCII
letters do not matter.
-/

namespace ModelTypes

/-- What the values of a column are. Tags without a domain of their own keep their text. -/
inductive ValueDomain where
  | enumerated
  | boolean
  | textual
  | temporal
  | numeric
  | other (tag : String)
  deriving DecidableEq, Repr

inductive FieldKind where
  | enum
  | boolean
  | string
  | number
  deriving DecidableEq, Repr

namespace ValueDomain

/-- The tag without its parameter list and the blanks around it. -/
def baseTag (tag : String) : List Char :=
  Text.trim (tag.toList.takeWhile (· ≠ '('))

/-- The tags with a domain of their own, in upper case. -/
def known : List (String × ValueDomain) :=
  [("ENUM", enumerated), ("BOOLEAN", boolean), ("STRING", textual), ("DATE", temporal),
   ("INTEGER", numeric), ("BIGINT", numeric), ("SMALLINT", numeric), ("MEDIUMINT", numeric),
   ("TINYINT", numeric), ("FLOAT", numeric), ("DOUBLE", numeric), ("REAL", numeric),
   ("DECIMAL", numeric), ("NUMBER", numeric)]

def ofTag (tag : String) : ValueDomain :=
  let base := baseTag tag
  match known.lookup (String.ofList (base.map Char.toUpper)) with
  | some domain => domain
  | none => other (String.ofList base)

def tag : ValueDomain → String
  | enumerated => "ENUM"
  | boolean => "BOOLEAN"
  | textual => "STRING"
  | temporal => "DATE"
  | numeric => "NUMERIC"
  | other tag => tag

/-- Whatever is neither enumerated, boolean nor text counts as a number. -/
def kind : ValueDomain → FieldKind
  | enumerated => .enum
  | boolean => .boolean
  | textual | temporal => .string
  | numeric | other _ => .number

end ValueDomain

def FieldKind.keyword : FieldKind → String
  | .enum => "enum"
  | .boolean => "boolean"
  | .string => "string"
  | .number => "number"

end ModelTypes
