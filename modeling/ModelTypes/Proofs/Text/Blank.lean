import Mathlib.Data.List.DropRight
import ModelTypes.Proofs.Text.Parsed
import ModelTypes.Text.Blank

/-!
# Trimmed texts

Trimming undoes any blanks that a text was given on either side, and what is trimmed has none left.
-/

namespace ModelTypes.Text

variable {c : Char} {front s back u : List Char}

/-- The blanks lie below the digits and above the letters of ASCII. -/
theorem isBlank_of_isAlphanum (h : c.isAlphanum) : isBlank c = false := by
  have hcode : 48 ≤ c.toNat ∧ c.toNat ≤ 122 := by
    change (decide (65 ≤ c.val ∧ c.val ≤ 90) || (decide (97 ≤ c.val) && decide (c.val ≤ 122)) ||
      (decide (48 ≤ c.val) && decide (c.val ≤ 57))) = true at h
    simp only [Bool.or_eq_true, Bool.and_eq_true, decide_eq_true_eq, UInt32.le_iff_toNat_le] at h
    change ((65 ≤ c.toNat ∧ c.toNat ≤ 90) ∨ 97 ≤ c.toNat ∧ c.toNat ≤ 122) ∨
      48 ≤ c.toNat ∧ c.toNat ≤ 57 at h
    omega
  have hranges : ∀ r ∈ blankRanges, r.2 < 48 ∨ 122 < r.1 := by decide
  refine Bool.eq_false_iff.2 fun hblank => ?_
  obtain ⟨r, hr, hblank⟩ := List.any_eq_true.1 hblank
  simp only [Bool.and_eq_true, decide_eq_true_eq] at hblank
  have := hranges r hr
  omega

/-! ## One side -/

theorem trimEnd_trimEnd : trimEnd (trimEnd u) = trimEnd u :=
  List.rdropWhile_idempotent isBlank u

theorem mem_of_mem_trimEnd (h : c ∈ trimEnd u) : c ∈ u :=
  (List.rdropWhile_prefix isBlank u).subset h

theorem trimStart_append (h : ∀ c ∈ front, isBlank c) : trimStart (front ++ s) = trimStart s :=
  List.dropWhile_append_of_pos h

theorem trimEnd_append (h : ∀ c ∈ back, isBlank c) : trimEnd (s ++ back) = trimEnd s := by
  rw [trimEnd, List.reverse_append,
    List.dropWhile_append_of_pos fun c hc => h c (List.mem_reverse.1 hc), trimEnd]

/-! ## Both sides -/

theorem mem_of_mem_trim (h : c ∈ trim s) : c ∈ s :=
  (List.dropWhile_sublist isBlank).subset (mem_of_mem_trimEnd h)

theorem trim_append (hfront : ∀ c ∈ front, isBlank c) (hback : ∀ c ∈ back, isBlank c) :
    trim (front ++ s ++ back) = trim s := by
  rw [trim, trim, List.append_assoc, trimStart_append hfront]
  by_cases hs : trimStart s = []
  · -- a text of blanks takes in those behind it
    have hall : ∀ c ∈ s, isBlank c := List.dropWhile_eq_nil_iff.1 hs
    rw [trimStart_append hall, hs, trimStart, List.dropWhile_eq_nil_iff.2 hback]
  · have happend : trimStart (s ++ back) = trimStart s ++ back :=
      List.dropWhile_append.trans (if_neg (mt List.isEmpty_iff.1 hs))
    rw [happend, trimEnd_append hback]

theorem trimStart_trim : trimStart (trim s) = trim s := by
  have hstart : (trimStart s).head?.any isBlank = false := head?_dropWhile
  obtain ⟨r, hr⟩ : trim s <+: trimStart s := List.rdropWhile_prefix isBlank _
  cases htrim : trim s with
  | nil => rfl
  | cons c t =>
    rw [← hr, htrim] at hstart
    exact List.dropWhile_cons_of_neg (Bool.eq_false_iff.1 hstart)

@[simp] theorem trim_trim : trim (trim s) = trim s := by
  rw [trim, trimStart_trim, trim, trimEnd_trimEnd]

end ModelTypes.Text
