/-!
# Identifiers

Names that a declaration can use bare: an ASCII letter, underscore or dollar sign, and then any
number of those and of ASCII digits.
-/

namespace ModelTypes.Text

def isIdentStart (c : Char) : Bool :=
  c.isAlpha || c == '_' || c == '$'

def isIdentRest (c : Char) : Bool :=
  c.isAlphanum || c == '_' || c == '$'

theorem isIdentRest_of_isIdentStart {c : Char} (h : isIdentStart c) : isIdentRest c := by
  simp only [isIdentStart, Bool.or_eq_true] at h
  simp only [isIdentRest, Char.isAlphanum, Bool.or_eq_true]
  rcases h with (h | h) | h <;> simp [h]

def isIdentifier : List Char → Bool
  | [] => false
  | c :: cs => isIdentStart c && cs.all isIdentRest

end ModelTypes.Text
