import Mathlib.Data.List.Basic
import ModelTypes.Text.Surrogate

/-!
# Code units

A text as a sequence of 16-bit code units, where a character beyond the first 65536 takes a pair of
surrogates. Not every sequence of units is one of a text: a leading surrogate needs a trailing one
behind it, and a trailing surrogate stands nowhere else.
-/

namespace ModelTypes.Text

def codeUnits (n : Nat) : List Nat :=
  if n < 0x10000 then [n]
  else [0xD800 + (n - 0x10000) / 0x400, 0xDC00 + (n - 0x10000) % 0x400]

def units (v : List Char) : List Nat :=
  v.flatMap fun c => codeUnits c.toNat

/-- The text that a sequence of units stands for, if there is one. -/
def Decodes (us : List Nat) (text : Option (List Char)) : Prop :=
  ∀ v, text = some v ↔ units v = us

variable {c d : Char} {n m : Nat} {us us' : List Nat} {v : List Char}

theorem units_cons : units (c :: v) = codeUnits c.toNat ++ units v :=
  List.flatMap_cons

/-! ## One character -/

theorem toNat_char (c : Char) : c.toNat < 0xD800 ∨ 0xDFFF < c.toNat ∧ c.toNat < 0x110000 :=
  c.valid

theorem toNat_ofNat (h : n.isValidChar) : (Char.ofNat n).toNat = n := by
  rw [Char.ofNat, dif_pos h]
  rfl

/-- A character is one unit that is no surrogate, or a pair of surrogates. -/
theorem codeUnits_cases (c : Char) :
    (c.toNat < 0x10000 ∧ codeUnits c.toNat = [c.toNat]) ∨
      ∃ hi lo, IsLeading hi ∧ IsTrailing lo ∧ codeUnits c.toNat = [hi, lo] ∧
        c.toNat = ofPair hi lo := by
  have hc := toNat_char c
  unfold codeUnits
  split
  · next hsmall => exact .inl ⟨hsmall, rfl⟩
  · next hlarge =>
    refine .inr ⟨_, _, ?_, ?_, rfl, ?_⟩
    · unfold IsLeading
      omega
    · unfold IsTrailing
      omega
    · unfold ofPair
      omega

theorem codeUnits_ne_nil : codeUnits n ≠ [] := by
  unfold codeUnits
  split <;> simp

theorem codeUnits_append_inj (h : codeUnits c.toNat ++ us = codeUnits d.toNat ++ us') :
    c = d ∧ us = us' := by
  have hc := toNat_char c
  have hd := toNat_char d
  rw [← Char.toNat_inj]
  rcases codeUnits_cases c with ⟨-, hcu⟩ | ⟨hi, lo, hhi, hlo, hcu, hcv⟩ <;>
    rcases codeUnits_cases d with ⟨-, hdu⟩ | ⟨hi', lo', hhi', hlo', hdu, hdv⟩ <;>
    rw [hcu, hdu] at h <;>
    simp only [List.cons_append, List.nil_append, List.cons.injEq] at h
  · exact h
  -- a unit of its own is no surrogate
  · exact absurd h.1 (by unfold IsLeading at hhi'; omega)
  · exact absurd h.1 (by unfold IsLeading at hhi; omega)
  · obtain ⟨rfl, rfl, rfl⟩ := h
    exact ⟨hcv.trans hdv.symm, rfl⟩

theorem countP_codeUnits (c : Char) : (codeUnits c.toNat).countP (¬ IsTrailing ·) = 1 := by
  rcases codeUnits_cases c with ⟨-, hcu⟩ | ⟨hi, lo, hhi, hlo, hcu, -⟩
  · have hnot : ¬ IsTrailing c.toNat := by
      have hc := toNat_char c
      unfold IsTrailing
      omega
    simp [hcu, hnot]
  · have hnot : ¬ IsTrailing hi := by
      unfold IsLeading IsTrailing at *
      omega
    simp [hcu, hnot, hlo]

/-! ## Texts -/

theorem units_injective {w : List Char} (h : units v = units w) : v = w := by
  induction v generalizing w with
  | nil =>
    cases w with
    | nil => rfl
    | cons d w => simp [units, codeUnits_ne_nil] at h
  | cons c v ih =>
    cases w with
    | nil => simp [units, codeUnits_ne_nil] at h
    | cons d w =>
      rw [units_cons, units_cons] at h
      obtain ⟨rfl, hrest⟩ := codeUnits_append_inj h
      rw [ih hrest]

/-- A text has as many characters as it has units other than trailing surrogates. -/
theorem countP_units : (units v).countP (¬ IsTrailing ·) = v.length := by
  induction v with
  | nil => rfl
  | cons c v ih => rw [units_cons, List.countP_append, ih, countP_codeUnits, List.length_cons,
      Nat.add_comm]

/-! ## Sequences of units -/

theorem Decodes.eq {o o' : Option (List Char)} (h : Decodes us o) (h' : Decodes us o') :
    o = o' := by
  rw [Option.ext_iff]
  intro v
  rw [h, h']

theorem decodes_none_iff : Decodes us none ↔ ∀ v, units v ≠ us := by
  simp [Decodes]

theorem decodes_units : Decodes (units v) (some v) := by
  intro w
  constructor
  · rintro ⟨⟩
    rfl
  · intro h
    rw [units_injective h]

theorem Decodes.cons {o : Option (List Char)} (h : Decodes us o) :
    Decodes (codeUnits c.toNat ++ us) (o.map (c :: ·)) := by
  intro v
  rw [Option.map_eq_some_iff]
  constructor
  · rintro ⟨w, hw, rfl⟩
    rw [units_cons, (h w).1 hw]
  · intro hv
    cases v with
    | nil => exact absurd (List.append_eq_nil_iff.1 hv.symm).1 codeUnits_ne_nil
    | cons d w =>
      rw [units_cons] at hv
      obtain ⟨rfl, hw⟩ := codeUnits_append_inj hv
      exact ⟨w, (h w).2 hw, rfl⟩

theorem codeUnits_char (hlead : ¬ IsLeading n) (htrail : ¬ IsTrailing n) (hn : n < 0x10000) :
    n.isValidChar ∧ codeUnits n = [n] := by
  refine ⟨?_, if_pos hn⟩
  unfold IsLeading at hlead
  unfold IsTrailing at htrail
  unfold Nat.isValidChar
  omega

theorem codeUnits_pair (hn : IsLeading n) (hm : IsTrailing m) :
    (ofPair n m).isValidChar ∧ codeUnits (ofPair n m) = [n, m] := by
  unfold IsLeading at hn
  unfold IsTrailing at hm
  unfold ofPair
  constructor
  · unfold Nat.isValidChar
    omega
  · rw [codeUnits, if_neg (by omega), List.cons.injEq, List.cons.injEq]
    refine ⟨?_, ?_, rfl⟩ <;> omega

theorem decodes_trailing (h : IsTrailing n) : Decodes (n :: us) none := by
  rw [decodes_none_iff]
  intro v hv
  cases v with
  | nil => cases hv
  | cons c v =>
    rw [units_cons] at hv
    rcases codeUnits_cases c with ⟨hsmall, hcu⟩ | ⟨hi, lo, hhi, -, hcu, -⟩ <;> rw [hcu] at hv
    · have hc := toNat_char c
      obtain ⟨rfl, -⟩ := List.cons.inj hv
      unfold IsTrailing at h
      omega
    · obtain ⟨rfl, -⟩ := List.cons.inj hv
      unfold IsLeading IsTrailing at *
      omega

theorem decodes_leading (h : IsLeading n) (hus : ∀ m ∈ us.head?, ¬ IsTrailing m) :
    Decodes (n :: us) none := by
  rw [decodes_none_iff]
  intro v hv
  cases v with
  | nil => cases hv
  | cons c v =>
    rw [units_cons] at hv
    rcases codeUnits_cases c with ⟨hsmall, hcu⟩ | ⟨hi, lo, -, hlo, hcu, -⟩ <;> rw [hcu] at hv
    · have hc := toNat_char c
      obtain ⟨rfl, -⟩ := List.cons.inj hv
      unfold IsLeading at h
      omega
    · obtain ⟨-, rfl⟩ := List.cons.inj hv
      exact hus lo rfl hlo

theorem head?_codeUnits (h : m ∈ (codeUnits c.toNat ++ us).head?) : ¬ IsTrailing m := by
  rcases codeUnits_cases c with ⟨-, hcu⟩ | ⟨hi, lo, hhi, -, hcu, -⟩ <;> rw [hcu] at h
  · obtain rfl : c.toNat = m := Option.some.inj h
    have hc := toNat_char c
    unfold IsTrailing
    omega
  · obtain rfl : hi = m := Option.some.inj h
    unfold IsLeading at hhi
    unfold IsTrailing
    omega

end ModelTypes.Text
