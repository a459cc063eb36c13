/-!
# Texts in messages

A text is shown in double quotes, and characters that cannot be seen, or could be mistaken for the
quotes, are escaped.
-/

namespace ModelTypes.Text

/-- Control characters, characters without a shape of their own, and marks that combine with the
character before them. -/
def hiddenRanges : List (Nat × Nat) :=
  [(0x00, 0x1F), (0x7F, 0xA0), (0xAD, 0xAD), (0x300, 0x36F), (0x483, 0x489), (0x591, 0x5BD),
   (0x610, 0x61A), (0x64B, 0x65F), (0x1680, 0x1680), (0x180B, 0x180F), (0x1AB0, 0x1ACE),
   (0x1DC0, 0x1DFF), (0x2000, 0x200F), (0x2028, 0x202F), (0x205F, 0x206F), (0x20D0, 0x20F0),
   (0x3000, 0x3000), (0x302A, 0x302F), (0x3099, 0x309A), (0xE000, 0xF8FF), (0xFE00, 0xFE0F),
   (0xFE20, 0xFE2F), (0xFEFF, 0xFEFF), (0xFFF0, 0xFFFB), (0xFFFE, 0xFFFF), (0xE0000, 0x10FFFF)]

def isHidden (c : Char) : Bool :=
  hiddenRanges.any fun (lo, hi) => lo ≤ c.toNat && c.toNat ≤ hi

def displayChar (c : Char) : List Char :=
  if c = '\x00' then ['\\', '0']
  else if c = '\t' then ['\\', 't']
  else if c = '\n' then ['\\', 'n']
  else if c = '\r' then ['\\', 'r']
  else if c = '"' ∨ c = '\'' ∨ c = '\\' then ['\\', c]
  else if isHidden c then "\\u\x7b".toList ++ Nat.toDigits 16 c.toNat ++ "\x7d".toList
  else [c]

def display (s : String) : String :=
  String.ofList (['"'] ++ s.toList.flatMap displayChar ++ ['"'])

example : display "conf/c.toml" = "\"conf/c.toml\"" ∧ display "a\"\n" = "\"a\\\"\\n\"" := by
  decide +kernel

end ModelTypes.Text
