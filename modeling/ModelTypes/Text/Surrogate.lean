/-!
# Surrogates

The code units that stand for a character in pairs only: a leading one and a trailing one.
-/

namespace ModelTypes.Text

def IsLeading (unit : Nat) : Prop :=
  0xD800 ≤ unit ∧ unit < 0xDC00

def IsTrailing (unit : Nat) : Prop :=
  0xDC00 ≤ unit ∧ unit < 0xE000

def IsSurrogate (unit : Nat) : Prop :=
  0xD800 ≤ unit ∧ unit < 0xE000

instance : DecidablePred IsLeading := fun _ => inferInstanceAs (Decidable (_ ∧ _))

instance : DecidablePred IsTrailing := fun _ => inferInstanceAs (Decidable (_ ∧ _))

instance : DecidablePred IsSurrogate := fun _ => inferInstanceAs (Decidable (_ ∧ _))

/-- The code point that a pair of surrogates stands for. -/
def ofPair (leading trailing : Nat) : Nat :=
  0x10000 + (leading - 0xD800) * 0x400 + (trailing - 0xDC00)

end ModelTypes.Text
