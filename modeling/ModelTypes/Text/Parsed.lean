/-!
# Results of reading

A reader of a text gives a value and the rest of the text. The rest is shorter than a bound, so
that reading on from it terminates.
-/

namespace ModelTypes

/-- A value read off the front of a text; the rest is shorter than `n`. -/
structure Parsed (α : Type) (n : Nat) where
  value : α
  rest : List Char
  lt : rest.length < n

namespace Parsed

def map (f : α → β) (p : Parsed α n) : Parsed β n :=
  { p with value := f p.value }

def widen (p : Parsed α n) (h : n ≤ m) : Parsed α m :=
  { p with lt := Nat.lt_of_lt_of_le p.lt h }

def longer (p : Parsed α n) : Parsed α (n + 1) :=
  p.widen (Nat.le_succ n)

def nothing (value : α) (s : List Char) : Parsed α (s.length + 1) :=
  ⟨value, s, Nat.lt_succ_self _⟩

def char (value : α) (c : Char) (rest : List Char) : Parsed α (c :: rest).length :=
  ⟨value, rest, Nat.lt_succ_self _⟩

def run (value : α) (p : Char → Bool) (c : Char) (s : List Char) : Parsed α (c :: s).length :=
  ⟨value, s.dropWhile p, Nat.lt_succ_of_le (List.dropWhile_sublist p).length_le⟩

def upTo (value : α) (p : Char → Bool) (s : List Char) : Parsed α (s.length + 1) :=
  ⟨value, s.dropWhile p, Nat.lt_succ_of_le (List.dropWhile_sublist p).length_le⟩

def all (value : α) : Parsed α (n + 1) :=
  ⟨value, [], Nat.succ_pos n⟩

def after (c : Char) (p : Parsed α s.length) : Parsed α (c :: s).length :=
  p.longer

def within (p : Parsed α m) (h : m < n) : Parsed α n :=
  p.widen (Nat.le_of_lt h)

end Parsed

def dropFront? : (front s : List Char) → Option (List Char)
  | [], s => some s
  | _ :: _, [] => none
  | c :: cs, d :: ds => if c = d then dropFront? cs ds else none

theorem eq_append_of_dropFront? {front s rest : List Char} (h : dropFront? front s = some rest) :
    s = front ++ rest := by
  induction front generalizing s with
  | nil => exact Option.some.inj h
  | cons c cs ih =>
    cases s with
    | nil => cases h
    | cons d ds =>
      rw [dropFront?] at h
      split at h
      · next hc => rw [ih h, hc, List.cons_append]
      · cases h

theorem length_le_of_dropFront? {front s rest : List Char} (h : dropFront? front s = some rest) :
    rest.length ≤ s.length := by
  rw [eq_append_of_dropFront? h, List.length_append]
  exact Nat.le_add_left _ _

theorem length_lt_of_dropFront? {front s rest : List Char} (h : dropFront? front s = some rest)
    (hFront : front ≠ []) : rest.length < s.length := by
  rw [eq_append_of_dropFront? h, List.length_append]
  exact Nat.lt_add_of_pos_left (List.length_pos_iff.2 hFront)

end ModelTypes
