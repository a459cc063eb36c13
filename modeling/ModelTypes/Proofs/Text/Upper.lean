import ModelTypes.Proofs.Text.Units
import ModelTypes.Text.Upper

/-!
# Upper cases are in upper case

Every character of an upper case is its own upper case, so upper-casing a text twice is no more than
upper-casing it once. The underscore, which separates words, is in no upper case but its own.
-/

namespace ModelTypes.Text

variable {c d : Char} {n : Nat} {s t : List Nat}

/-! ## Sets of codes

The tables name more than a thousand characters and as many upper cases. Pair by pair, these would
take millions of comparisons; as sets of bits they take one. -/

def bitSet (codes : List Nat) : Nat :=
  codes.foldr (fun n bits => 1 <<< n ||| bits) 0

theorem testBit_bitSet : (bitSet s).testBit n = decide (n ∈ s) := by
  induction s with
  | nil => exact Nat.zero_testBit n
  | cons m s ih =>
    have hcons : bitSet (m :: s) = 1 <<< m ||| bitSet s := rfl
    rw [hcons, Nat.testBit_or, Nat.one_shiftLeft, Nat.testBit_two_pow, ih]
    simp [eq_comm]

theorem not_mem_of_bitSet (h : bitSet s &&& bitSet t = 0) (hs : n ∈ s) : n ∉ t := by
  intro ht
  have hbit : (bitSet s &&& bitSet t).testBit n := by
    simp [Nat.testBit_and, testBit_bitSet, hs, ht]
  rw [h, Nat.zero_testBit] at hbit
  cases hbit

/-! ## The tables -/

namespace CaseRun

variable {r : CaseRun}

def codes (r : CaseRun) : List Nat :=
  (List.range r.count).map (r.first + r.step * ·)

def upperCodes (r : CaseRun) : List Nat :=
  (List.range r.count).map (r.upper + r.step * ·)

theorem Contains.exists_index (h : r.Contains n) : ∃ k < r.count, n = r.first + r.step * k := by
  obtain ⟨hfirst, hend, hstep⟩ := h
  obtain ⟨k, hk⟩ := Nat.dvd_of_mod_eq_zero hstep
  have hlt : r.step * k < r.step * r.count := by omega
  exact ⟨k, Nat.lt_of_mul_lt_mul_left hlt, by omega⟩

theorem Contains.mem_codes (h : r.Contains n) : n ∈ r.codes := by
  obtain ⟨k, hk, rfl⟩ := h.exists_index
  exact List.mem_map.2 ⟨k, List.mem_range.2 hk, rfl⟩

theorem Contains.mem_upperCodes (h : r.Contains n) : r.upper + (n - r.first) ∈ r.upperCodes := by
  obtain ⟨k, hk, rfl⟩ := h.exists_index
  rw [Nat.add_sub_cancel_left]
  exact List.mem_map.2 ⟨k, List.mem_range.2 hk, rfl⟩

end CaseRun

/-- The codes of the characters that are not their own upper case. -/
def lowerCodes : List Nat :=
  upperSequences.map Prod.fst ++ caseRuns.flatMap CaseRun.codes

def upperCodes : List Nat :=
  upperSequences.flatMap Prod.snd ++ caseRuns.flatMap CaseRun.upperCodes

theorem bitSet_codes : bitSet lowerCodes &&& bitSet upperCodes = 0 := by
  decide +kernel

theorem upperCodes_valid : ∀ n ∈ upperCodes, n.isValidChar ∧ n ≠ '_'.toNat := by
  decide +kernel

theorem upperSequences_ne_nil : ∀ p ∈ upperSequences, p.2 ≠ [] := by
  decide

/-! ## One character -/

theorem upper_of_not_mem (h : c.toNat ∉ lowerCodes) : upper c = [c] := by
  obtain ⟨hsequence, hrun⟩ := not_or.1 (mt List.mem_append.2 h)
  have hlookup : upperSequences.lookup c.toNat = none := by
    rw [List.lookup_eq_none_iff]
    intro p hp
    exact bne_iff_ne.2 fun heq => hsequence (List.mem_map.2 ⟨p, hp, heq.symm⟩)
  have hfind : caseRuns.find? (fun r => decide (r.Contains c.toNat)) = none := by
    rw [List.find?_eq_none]
    intro r hr hc
    exact hrun (List.mem_flatMap.2 ⟨r, hr, (of_decide_eq_true hc).mem_codes⟩)
  rw [upper, hlookup, hfind]

/-- A character is its own upper case, or that is made of characters from the tables. -/
theorem upper_cases (c : Char) :
    upper c = [c] ∨
      ∃ codes ≠ [], upper c = codes.map Char.ofNat ∧ ∀ n ∈ codes, n ∈ upperCodes := by
  unfold upper
  split
  · next codes hlookup =>
    obtain ⟨front, back, htable, -⟩ := List.lookup_eq_some_iff.1 hlookup
    have hmem : (c.toNat, codes) ∈ upperSequences := by simp [htable]
    refine .inr ⟨codes, upperSequences_ne_nil _ hmem, rfl, fun n hn => ?_⟩
    exact List.mem_append_left _ (List.mem_flatMap.2 ⟨_, hmem, hn⟩)
  split
  · next r hfind =>
    have hcontains : r.Contains c.toNat := by simpa using List.find?_some hfind
    refine .inr ⟨[_], List.cons_ne_nil _ _, rfl, List.forall_mem_singleton.2 ?_⟩
    exact List.mem_append_right _
      (List.mem_flatMap.2 ⟨r, List.mem_of_find?_eq_some hfind, hcontains.mem_upperCodes⟩)
  · exact .inl rfl

theorem upper_ne_nil : upper c ≠ [] := by
  rcases upper_cases c with h | ⟨codes, hne, h, -⟩ <;> rw [h]
  · exact List.cons_ne_nil _ _
  · exact mt List.map_eq_nil_iff.1 hne

theorem upper_of_mem_upper (h : d ∈ upper c) : upper d = [d] := by
  rcases upper_cases c with hc | ⟨codes, -, hc, hcodes⟩
  · rw [hc, List.mem_singleton] at h
    rwa [h]
  · rw [hc] at h
    obtain ⟨n, hn, rfl⟩ := List.mem_map.1 h
    have hmem : n ∈ upperCodes := hcodes n hn
    apply upper_of_not_mem
    rw [toNat_ofNat (upperCodes_valid n hmem).1]
    exact fun hlower => not_mem_of_bitSet bitSet_codes hlower hmem

theorem underscore_mem_upper_iff : '_' ∈ upper c ↔ c = '_' := by
  constructor
  · intro h
    rcases upper_cases c with hc | ⟨codes, -, hc, hcodes⟩
    · rw [hc, List.mem_singleton] at h
      exact h.symm
    · rw [hc] at h
      obtain ⟨n, hn, hchar⟩ := List.mem_map.1 h
      obtain ⟨hvalid, hne⟩ := upperCodes_valid n (hcodes n hn)
      exact absurd (by rw [← hchar, toNat_ofNat hvalid]) hne
  · rintro rfl
    decide +kernel

end ModelTypes.Text
