/-!
# Sets of names

A set of names is the strictly ascending list of them, so equal sets are equal values.
-/

namespace ModelTypes

structure NameSet where
  names : List String
  ascending : names.Pairwise (· < ·)
  deriving DecidableEq

namespace NameSet

/-- Puts a name into an ascending list, once. -/
def insertInto (name : String) : List String → List String
  | [] => [name]
  | x :: xs => if name < x then name :: x :: xs else if name = x then x :: xs else
      x :: insertInto name xs

theorem mem_insertInto {name x : String} {xs : List String} :
    x ∈ insertInto name xs ↔ x = name ∨ x ∈ xs := by
  induction xs with
  | nil => simp [insertInto]
  | cons y ys ih =>
    rw [insertInto]
    split
    · simp
    · split
      · next h => simp [h]
      · simp only [List.mem_cons, ih]
        constructor <;> rintro (h | h | h) <;> simp [h]

theorem ascending_insertInto {name : String} {xs : List String} (h : xs.Pairwise (· < ·)) :
    (insertInto name xs).Pairwise (· < ·) := by
  induction xs with
  | nil => simp [insertInto]
  | cons y ys ih =>
    obtain ⟨hy, hys⟩ := List.pairwise_cons.1 h
    rw [insertInto]
    split
    · next hlt =>
      refine List.pairwise_cons.2 ⟨fun z hz => ?_, h⟩
      rcases List.mem_cons.1 hz with rfl | hz
      · exact hlt
      · exact String.lt_trans hlt (hy z hz)
    · split
      · exact h
      · next hnlt hne =>
        refine List.pairwise_cons.2 ⟨fun z hz => ?_, ih hys⟩
        rcases mem_insertInto.1 hz with rfl | hz
        · exact Std.lt_of_le_of_ne (String.not_lt.1 hnlt) (Ne.symm hne)
        · exact hy z hz

instance : EmptyCollection NameSet := ⟨⟨[], .nil⟩⟩

instance : Membership String NameSet := ⟨fun s name => name ∈ s.names⟩

instance (name : String) (s : NameSet) : Decidable (name ∈ s) :=
  inferInstanceAs (Decidable (name ∈ s.names))

def insert (s : NameSet) (name : String) : NameSet :=
  ⟨insertInto name s.names, ascending_insertInto s.ascending⟩

def insertAll (s : NameSet) (names : List String) : NameSet :=
  names.foldl insert s

def ofList (names : List String) : NameSet :=
  insertAll ∅ names

theorem mem_insert {s : NameSet} {name x : String} : x ∈ s.insert name ↔ x = name ∨ x ∈ s :=
  mem_insertInto

theorem mem_insertAll {s : NameSet} {names : List String} {x : String} :
    x ∈ s.insertAll names ↔ x ∈ s ∨ x ∈ names := by
  induction names generalizing s with
  | nil => simp [insertAll]
  | cons y ys ih =>
    show x ∈ (s.insert y).insertAll ys ↔ _
    rw [ih, mem_insert, List.mem_cons]
    constructor
    · rintro ((h | h) | h) <;> simp [h]
    · rintro (h | h | h) <;> simp [h]

end NameSet

end ModelTypes
