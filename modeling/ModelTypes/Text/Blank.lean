/-!
# Blank characters

Characters with Unicode's `White_Space` property, and what depends on them: trimming and the first
word of a text.
-/

namespace ModelTypes.Text

def blankRanges : List (Nat × Nat) :=
  [(0x09, 0x0D), (0x20, 0x20), (0x85, 0x85), (0xA0, 0xA0), (0x1680, 0x1680), (0x2000, 0x200A),
   (0x2028, 0x2029), (0x202F, 0x202F), (0x205F, 0x205F), (0x3000, 0x3000)]

def isBlank (c : Char) : Bool :=
  blankRanges.any fun (lo, hi) => lo ≤ c.toNat && c.toNat ≤ hi

def trimStart (s : List Char) : List Char :=
  s.dropWhile isBlank

def trimEnd (s : List Char) : List Char :=
  (s.reverse.dropWhile isBlank).reverse

def trim (s : List Char) : List Char :=
  trimEnd (trimStart s)

/-- The first stretch of characters that are not blank, if there is one. -/
def firstWord? (s : List Char) : Option (List Char) :=
  match (s.dropWhile isBlank).takeWhile (!isBlank ·) with
  | [] => none
  | word => some word

end ModelTypes.Text
