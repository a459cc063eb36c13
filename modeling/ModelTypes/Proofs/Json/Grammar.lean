import ModelTypes.Json.Reading
import ModelTypes.Proofs.Declaration.Tokens
import ModelTypes.Proofs.Text.Units

/-!
# The grammar of JSON

Which texts spell which values, said without a reader. Every relation takes a text on the left and
what it spells on the right. The text between two quotes denotes code units; a string whose units
are those of no text, because of an unpaired surrogate, spells a string without a value.
-/

namespace ModelTypes.Json

open Grammar (Gap gap_nil)
open Text (codeUnits Decodes)

/-! ## Numbers -/

def Digits (ds : List Char) : Prop :=
  ds ≠ [] ∧ ∀ c ∈ ds, c.isDigit

/-- Digits with no zero in front of others. -/
def Whole (ds : List Char) : Prop :=
  Digits ds ∧ (ds.head? = some '0' → ds.length = 1)

inductive FractionText : List Char → Option (List Char) → Prop
  | none : FractionText [] none
  | digits : Digits ds → FractionText ('.' :: ds) (some ds)

inductive SignText : List Char → Bool → Prop
  | none : SignText [] false
  | plus : SignText ['+'] false
  | minus : SignText ['-'] true

inductive ExponentText : List Char → Option (Bool × List Char) → Prop
  | none : ExponentText [] none
  | digits : e = 'e' ∨ e = 'E' → SignText u minus → Digits ds →
      ExponentText (e :: u ++ ds) (some (minus, ds))

inductive NumberText : List Char → Numeral → Prop
  | number : Whole ds → FractionText u fraction → ExponentText v exponent →
      NumberText ((if negative then ['-'] else []) ++ ds ++ u ++ v)
        ⟨negative, ds, fraction, exponent⟩

/-! ## Strings -/

def shortEscapes : List (Char × Char) :=
  [('"', '"'), ('\\', '\\'), ('/', '/'), ('b', '\x08'), ('f', '\x0c'), ('n', '\n'), ('r', '\r'),
   ('t', '\t')]

/-- The text between two quotes, and the code units that it denotes. -/
inductive StringBody : List Char → List Nat → Prop
  | nil : StringBody [] []
  | plain : c ≠ '"' → c ≠ '\\' → 0x20 ≤ c.toNat → StringBody u us →
      StringBody (c :: u) (codeUnits c.toNat ++ us)
  | short : (c, d) ∈ shortEscapes → StringBody u us →
      StringBody ('\\' :: c :: u) (codeUnits d.toNat ++ us)
  | unit : digits.length = 4 → Text.hexNumber? 0 digits = some n → StringBody u us →
      StringBody ('\\' :: 'u' :: digits ++ u) (n :: us)

inductive StringText : List Char → Option String → Prop
  | quoted : StringBody u us → Decodes us v → StringText ('"' :: u ++ ['"']) (v.map String.ofList)

/-! ## Values -/

mutual

inductive ValueText : List Char → Reading → Prop
  | null : ValueText "null".toList .null
  | true : ValueText "true".toList (.bool true)
  | false : ValueText "false".toList (.bool false)
  | number : NumberText u n → ValueText u (.number n)
  | string : StringText u v → ValueText u (.string v)
  | noItems : Gap g → ValueText ('[' :: g ++ [']']) (.array [] none)
  | array : Gap g → ItemsText u rs → ValueText ('[' :: g ++ u ++ [']']) (.array rs none)
  | noMembers : Gap g → ValueText ('{' :: g ++ ['}']) (.object [] none)
  | object : Gap g → MembersText u ms → ValueText ('{' :: g ++ u ++ ['}']) (.object ms none)

inductive ItemsText : List Char → List Reading → Prop
  | last : ValueText u r → Gap g → ItemsText (u ++ g) [r]
  | more : ValueText u r → Gap g → Gap g' → ItemsText v rs →
      ItemsText (u ++ g ++ ',' :: g' ++ v) (r :: rs)

inductive MembersText : List Char → List Member → Prop
  | last : MemberText u m → Gap g → MembersText (u ++ g) [m]
  | more : MemberText u m → Gap g → Gap g' → MembersText v ms →
      MembersText (u ++ g ++ ',' :: g' ++ v) (m :: ms)

inductive MemberText : List Char → Member → Prop
  | member : StringText u key → Gap g → Gap g' → ValueText v r →
      MemberText (u ++ g ++ ':' :: g' ++ v) ⟨key, r⟩

end

inductive DocumentText : List Char → Reading → Prop
  | document : Gap g → ValueText u r → Gap g' → DocumentText (g ++ u ++ g') r

/-! ## Dense texts -/

def isPlain (c : Char) : Bool :=
  c != '"' && c != '\\' && 0x20 ≤ c.toNat

theorem stringBody_plain (h : v.all isPlain) : StringBody v (Text.units v) := by
  induction v with
  | nil => exact .nil
  | cons c v ih =>
    simp only [List.all_cons, isPlain, Bool.and_eq_true, bne_iff_ne, decide_eq_true_eq] at h
    exact .plain h.1.1.1 h.1.1.2 h.1.2 (ih h.2)

theorem stringText_plain {s : String} (h : s.toList.all isPlain) :
    StringText ('"' :: s.toList ++ ['"']) (some s) := by
  have htext := StringText.quoted (stringBody_plain h) Text.decodes_units
  rwa [Option.map_some, String.ofList_toList] at htext

theorem valueText_plain {s : String} (h : s.toList.all isPlain) :
    ValueText ('"' :: s.toList ++ ['"']) (.string (some s)) :=
  .string (stringText_plain h)

theorem memberText_plain {s : String} (hs : s.toList.all isPlain) (h : ValueText v r) :
    MemberText ('"' :: s.toList ++ ['"', ':'] ++ v) ⟨some s, r⟩ := by
  simpa using MemberText.member (stringText_plain hs) gap_nil gap_nil h

theorem membersText_last (h : MemberText u m) : MembersText u [m] := by
  simpa using MembersText.last h gap_nil

theorem membersText_more (h : MemberText u m) (hms : MembersText v ms) :
    MembersText (u ++ ',' :: v) (m :: ms) := by
  simpa using MembersText.more h gap_nil gap_nil hms

theorem valueText_object (h : MembersText u ms) :
    ValueText ('{' :: u ++ ['}']) (.object ms none) := by
  simpa using ValueText.object gap_nil h

theorem valueText_singleton (h : ValueText u r) :
    ValueText ('[' :: u ++ [']']) (.array [r] none) := by
  simpa using ValueText.array gap_nil (ItemsText.last h gap_nil)

/-- The text is compared as a whole, since a text of any length is slow to take apart. -/
theorem documentText_ofList {text : String} (h : ValueText u r) (htext : text = String.ofList u) :
    DocumentText text.toList r := by
  rw [htext, String.toList_ofList]
  simpa using DocumentText.document gap_nil h gap_nil

end ModelTypes.Json
