import ModelTypes.Text.Gap
import ModelTypes.Text.Parsed

/-!
# What readers give

The bound in a `Parsed` result depends on the text that was read, which gets in the way of
rewriting that text. Results are therefore compared as pairs of a value and a rest.
-/

namespace ModelTypes

@[simp] theorem except_map_ok {f : α → β} : (Except.ok a : Except ε α).map f = .ok (f a) := rfl

@[simp] theorem except_map_error {f : α → β} : (Except.error e : Except ε α).map f = .error e := rfl

namespace Parsed

def pair (p : Parsed α n) : α × List Char :=
  (p.value, p.rest)

@[simp] theorem pair_mk {r : List Char} (h : r.length < n) : (⟨a, r, h⟩ : Parsed α n).pair = (a, r) :=
  rfl

@[simp] theorem pair_map {f : α → β} {p : Parsed α n} : (p.map f).pair = p.pair.map f id := rfl

@[simp] theorem pair_widen {p : Parsed α n} {h : n ≤ m} : (p.widen h).pair = p.pair := rfl

@[simp] theorem pair_within {p : Parsed α m} {h : m < n} : (p.within h).pair = p.pair := rfl

@[simp] theorem pair_after {s : List Char} {p : Parsed α s.length} : (p.after c).pair = p.pair := rfl

@[simp] theorem pair_nothing {s : List Char} : (nothing a s).pair = (a, s) := rfl

@[simp] theorem pair_char {r : List Char} : (char a c r).pair = (a, r) := rfl

@[simp] theorem pair_run {p : Char → Bool} {s : List Char} : (run a p c s).pair = (a, s.dropWhile p) :=
  rfl

theorem pair_eq_iff {p : Parsed α n} : p.pair = (a, r) ↔ ∃ h, p = ⟨a, r, h⟩ := by
  constructor
  · intro h
    cases p
    cases h
    exact ⟨_, rfl⟩
  · rintro ⟨h, rfl⟩
    rfl

theorem map_pair_some {x : Option (Parsed α n)} :
    x.map pair = some (a, r) ↔ ∃ h, x = some ⟨a, r, h⟩ := by
  simp only [Option.map_eq_some_iff, pair_eq_iff]
  constructor
  · rintro ⟨p, rfl, h, rfl⟩
    exact ⟨h, rfl⟩
  · rintro ⟨h, rfl⟩
    exact ⟨_, rfl, h, rfl⟩

theorem map_pair_ok {x : Except ε (Parsed α n)} :
    x.map pair = .ok (a, r) ↔ ∃ h, x = .ok ⟨a, r, h⟩ := by
  cases x with
  | error e => simp
  | ok p => simpa using pair_eq_iff

theorem map_pair_ok_some {x : Except ε (Option (Parsed α n))} :
    x.map (·.map pair) = .ok (some (a, r)) ↔ ∃ h, x = .ok (some ⟨a, r, h⟩) := by
  cases x with
  | error e => simp
  | ok p => simpa using map_pair_some

end Parsed

namespace Text

/-! ## Runs of characters -/

variable {p : Char → Bool} {u r s : List Char}

theorem takeWhile_append (hu : ∀ c ∈ u, p c) (hr : r.head?.any p = false) :
    (u ++ r).takeWhile p = u := by
  rw [List.takeWhile_append_of_pos hu]
  cases r with
  | nil => simp
  | cons c cs => simp_all

theorem dropWhile_append (hu : ∀ c ∈ u, p c) (hr : r.head?.any p = false) :
    (u ++ r).dropWhile p = r := by
  rw [List.dropWhile_append_of_pos hu]
  cases r with
  | nil => rfl
  | cons c cs => simp_all

theorem head?_dropWhile : (s.dropWhile p).head?.any p = false := by
  have h := List.head?_dropWhile_not p s
  cases hd : (s.dropWhile p).head? with
  | none => rfl
  | some c => simpa [hd] using h

end Text

/-! ## Fronts -/

theorem dropFront?_append {front s : List Char} : dropFront? front (front ++ s) = some s := by
  induction front with
  | nil => rfl
  | cons c cs ih => simp [dropFront?, ih]

theorem dropFront?_eq_none {cs s : List Char} (h : s.head? ≠ some c) :
    dropFront? (c :: cs) s = none := by
  cases s with
  | nil => rfl
  | cons d ds => exact if_neg fun hc => h (by rw [hc]; rfl)

end ModelTypes
