import ModelTypes.Declaration.Basic
import ModelTypes.Declaration.Literal
import ModelTypes.Proofs.Text.Parsed
import ModelTypes.Text.Blank
import ModelTypes.Text.Identifier

/-!
# The grammar of declaration files

Which texts spell which items, said without a reader. A text is put together from its tokens and
the gaps between them; every relation takes a text on the left and what it spells on the right.
Parentheses leave no trace, and the members of a type make a union as `TypeExpr.ofMembers` says.

Nothing here says how far to read. The only conditions on what comes next are that a line comment
runs to the end of its line and that no word runs on into the next one.
-/

namespace ModelTypes.Grammar

open Text (isGap isIdentifier isIdentRest)

/-! ## Tokens -/

def Gap (g : List Char) : Prop :=
  ∀ c ∈ g, isGap c

/-- A text that does not go on with an identifier character. -/
def WordEnd (s : List Char) : Prop :=
  s.head?.any isIdentRest = false

/-- No word at the end of the first text runs on into the second. -/
def Apart (u v : List Char) : Prop :=
  u.getLast?.any isIdentRest → WordEnd v

def Sign (c : Char) (w : List Char) : Prop :=
  ∃ g, Gap g ∧ w = g ++ [c]

def OptionalSign (c : Char) (present : Bool) (w : List Char) : Prop :=
  if present then Sign c w else w = []

def Separator (w : List Char) : Prop :=
  Sign ',' w ∨ Sign ';' w

def OptionalSeparator (w : List Char) : Prop :=
  w = [] ∨ Separator w

def OptionalKeyword (keyword : List Char) (present : Bool) (w : List Char) : Prop :=
  if present then ∃ g, Gap g ∧ g ≠ [] ∧ w = keyword ++ g else w = []

inductive DottedName : List Char → Prop
  | identifier : isIdentifier u → DottedName u
  | dotted : isIdentifier u → DottedName v → DottedName (u ++ '.' :: v)

/-- The text between two quotes, and the text that it denotes. -/
inductive LiteralBody (quote : Char) : List Char → List Char → Prop
  | nil : LiteralBody quote [] []
  | plain : c ≠ quote → c ≠ '\\' → c ≠ '\n' → LiteralBody quote u v →
      LiteralBody quote (c :: u) (c :: v)
  | escape : (Literal.unescape u).map Parsed.pair = some (c, u') → LiteralBody quote u' v →
      LiteralBody quote ('\\' :: u) (c :: v)

inductive LiteralText : List Char → List Char → Prop
  | quoted : Literal.isQuote quote → LiteralBody quote u v → LiteralText (quote :: u ++ [quote]) v

inductive KeyText : List Char → List Char → Prop
  | literal : LiteralText u v → KeyText u v
  | bare : isIdentifier u → KeyText u u

inductive Dimensions : List Char → TypeExpr → TypeExpr → Prop
  | none : Dimensions [] t t
  | array : Sign '[' w → Sign ']' w' → Dimensions v (.array t) t' → Dimensions (w ++ w' ++ v) t t'

/-! ## Types -/

mutual

/-- A type, with the gap before it and perhaps a `|` in front. -/
inductive TypeText : List Char → TypeExpr → Prop
  | members : OptionalSign '|' leading w → Gap g → Members u (t :: ts) →
      TypeText (w ++ g ++ u) (.ofMembers t ts)

inductive Members : List Char → List TypeExpr → Prop
  | last : MemberText u t → Members u [t]
  | more : MemberText u t → Sign '|' w → Gap g → Members v ts → Members (u ++ w ++ g ++ v) (t :: ts)

/-- A type that is no union, unless in parentheses. -/
inductive MemberText : List Char → TypeExpr → Prop
  | maybe : Gap g → MemberText u t → MemberText ('?' :: g ++ u) (.maybe t)
  | dimensions : Primary u t → Dimensions v t t' → MemberText (u ++ v) t'

inductive Primary : List Char → TypeExpr → Prop
  | literal : LiteralText u v → Primary u (.literal (String.ofList v))
  | object : Gap g → Properties u ps → Gap g' →
      Primary (TypeExpr.opening exact ++ g ++ u ++ g' ++ TypeExpr.closing exact) (.object exact ps)
  | parentheses : TypeText u t → Sign ')' w → Primary ('(' :: u ++ w) t
  | named : DottedName u → Primary u (.named (String.ofList u))

/-- Properties with a separator between them; one may also stand at the end, even if there is no
property. -/
inductive Properties : List Char → List Property → Prop
  | none : OptionalSeparator w → Properties w []
  | last : PropertyText u p → OptionalSeparator w → Properties (u ++ w) [p]
  | more : PropertyText u p → Separator w → Gap g → Properties v (q :: ps) →
      Properties (u ++ w ++ g ++ v) (p :: q :: ps)

inductive PropertyText : List Char → Property → Prop
  | property : KeyText u key → OptionalSign '?' marked w → Sign ':' w' → TypeText v t →
      PropertyText (u ++ w ++ w' ++ v) ⟨String.ofList key, marked, t⟩

end

/-! ## Items -/

inductive DeclarationText : List Char → Modifier → List Char → TypeExpr → Prop
  | declaration : OptionalKeyword "declare".toList declared w →
      OptionalKeyword "export".toList exported w' → Gap g → g ≠ [] → isIdentifier name →
      Sign '=' equals → TypeText u t → OptionalSign ';' terminated semi →
      DeclarationText (w ++ w' ++ "type".toList ++ g ++ name ++ equals ++ u ++ semi)
        ⟨declared, exported⟩ name t

inductive Items : List Char → List Item → Prop
  | none : Gap g → Items g []
  | line : Gap g → '\n' ∉ text → s.head?.all (· = '\n') → Items s items →
      Items (g ++ '/' :: '/' :: text ++ s)
        (.comment (.line (String.ofList (Text.trimEnd text))) :: items)
  | block : Gap g → ¬ ['*', '/'] <:+: text → Items s items →
      Items (g ++ '/' :: '*' :: text ++ '*' :: '/' :: s)
        (.comment (.block (String.ofList text)) :: items)
  | declaration : Gap g → DeclarationText u modifier name t → Apart u s → Items s items →
      Items (g ++ u ++ s) (.declaration modifier (String.ofList name) t :: items)

end ModelTypes.Grammar
