import ModelTypes.Json.Quoted
import ModelTypes.Proofs.Declaration.Literal

/-!
# Quoted JSON strings as literals

A JSON string is also a literal of a declaration file, and denotes the same text there.
-/

namespace ModelTypes.Json

open Grammar (LiteralBody LiteralText)
open Literal (namedChar? body_escaped body_fourDigits)

theorem namedChar?_code (h : c.toNat < 0x20) :
    namedChar? ['0', '0', Nat.digitChar (c.toNat / 16), Nat.digitChar (c.toNat % 16)] = some c := by
  -- there are 32 of them, so that all can be tried
  have hsmall : ∀ n < 0x20, namedChar? ['0', '0', Nat.digitChar (n / 16), Nat.digitChar (n % 16)] =
      some (Char.ofNat n) := by
    decide +kernel
  rw [hsmall c.toNat h, Char.ofNat_toNat]

theorem body_encodeChar (h : LiteralBody '"' u v) : LiteralBody '"' (encodeChar c ++ u) (c :: v) := by
  -- one case for each short escape, then codes, then plain characters
  unfold encodeChar
  split
  · next hc => subst hc; exact body_escaped rfl (by decide) h
  split
  · next hc => subst hc; exact body_escaped rfl (by decide) h
  split
  · next hc => subst hc; exact body_escaped rfl (by decide) h
  split
  · next hc => subst hc; exact body_escaped rfl (by decide) h
  split
  · next hc => subst hc; exact body_escaped rfl (by decide) h
  split
  · next hc => subst hc; exact body_escaped rfl (by decide) h
  split
  · next hc => subst hc; exact body_escaped rfl (by decide) h
  split
  · next hc => exact body_fourDigits (namedChar?_code hc) h
  · next hquote hslash _ _ hline _ _ _ => exact .plain hquote hslash hline h

theorem literalText_encode : LiteralText (encode v) v := by
  have hbody : LiteralBody '"' (v.flatMap encodeChar) v := by
    induction v with
    | nil => exact .nil
    | cons c cs ih => exact body_encodeChar ih
  exact .quoted rfl hbody

end ModelTypes.Json
