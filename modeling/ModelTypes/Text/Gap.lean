/-!
# Gaps between tokens

Spaces, tabs, carriage returns and line feeds.
-/

namespace ModelTypes.Text

def isGap (c : Char) : Bool :=
  c == ' ' || c == '\t' || c == '\r' || c == '\n'

def skipGap (s : List Char) : List Char :=
  s.dropWhile isGap

theorem length_dropWhile_le (p : Char → Bool) (s : List Char) :
    (s.dropWhile p).length ≤ s.length :=
  (List.dropWhile_sublist p).length_le

theorem length_skipGap_le (s : List Char) : (skipGap s).length ≤ s.length :=
  length_dropWhile_le _ _

theorem length_lt_of_skipGap_eq_cons {s rest : List Char} {c : Char} (h : skipGap s = c :: rest) :
    rest.length < s.length := by
  have := length_skipGap_le s
  rw [h] at this
  exact this

end ModelTypes.Text
