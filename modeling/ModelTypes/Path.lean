/-!
# Paths

Paths are texts with `/` between their components. Joining and taking the parent work on the text
alone; neither resolves `.` or `..`.
-/

namespace ModelTypes

abbrev Path := String

namespace Path

def isAbsolute (path : Path) : Bool :=
  path.toList.head? == some '/'

/-- A path seen from a base; an absolute path stands for itself. -/
def join (base path : Path) : Path :=
  if isAbsolute path || base.isEmpty then path
  else if base.toList.getLast? == some '/' then base ++ path
  else base ++ "/" ++ path

/-- The text between slashes, empty pieces included. -/
def pieces : List Char → List (List Char)
  | [] => [[]]
  | c :: rest =>
    if c = '/' then [] :: pieces rest
    else
      match pieces rest with
      | first :: others => (c :: first) :: others
      | [] => [[c]]

/-! ## Parents

A parent is taken on the reversed body of a path: what follows its root or its leading `.`. -/

def rootLength : List Char → Nat
  | '/' :: _ => 1
  | ['.'] => 1
  | '.' :: '/' :: _ => 1
  | _ => 0

/-- Drops the empty pieces and single dots at the end of a reversed body. -/
def dropEmptyPieces : List Char → List Char
  | '/' :: rest => dropEmptyPieces rest
  | '.' :: '/' :: rest => dropEmptyPieces rest
  | ['.'] => []
  | body => body

theorem length_dropEmptyPieces_le (s : List Char) : (dropEmptyPieces s).length ≤ s.length := by
  fun_induction dropEmptyPieces s <;> simp <;> omega

def parentOf? (s : List Char) : Option (List Char) :=
  match dropEmptyPieces (s.drop (rootLength s)).reverse with
  | [] => if s.head? = some '.' then some [] else none
  | c :: cs =>
    let before := ((c :: cs).dropWhile (· ≠ '/')).drop 1
    some (s.take (rootLength s) ++ (dropEmptyPieces before).reverse)

theorem length_parentOf?_lt {s parent : List Char} (h : parentOf? s = some parent) :
    parent.length < s.length := by
  rw [parentOf?] at h
  have hBody := length_dropEmptyPieces_le (s.drop (rootLength s)).reverse
  split at h
  · split at h
    · next hDot => cases h; cases s <;> simp at hDot ⊢
    · cases h
  · next c cs hcs =>
    cases h
    rw [hcs] at hBody
    have hBefore := length_dropEmptyPieces_le (((c :: cs).dropWhile (· ≠ '/')).drop 1)
    have hDrop := (List.dropWhile_sublist (· ≠ '/') (l := c :: cs)).length_le
    simp only [List.length_append, List.length_take, List.length_reverse, List.length_drop,
      List.length_cons] at *
    omega

/-- The path and the paths above it, the nearest first. -/
def ancestorsOf (s : List Char) : List (List Char) :=
  match h : parentOf? s with
  | none => [s]
  | some parent =>
    have := length_parentOf?_lt h
    s :: ancestorsOf parent
termination_by s.length

def parent? (path : Path) : Option Path :=
  (parentOf? path.toList).map String.ofList

def ancestors (path : Path) : List Path :=
  (ancestorsOf path.toList).map String.ofList

example : parent? "conf/c.toml" = some "conf" ∧ parent? "./c.toml" = some "." ∧
    parent? "c.toml" = some "" ∧ parent? "" = none ∧ parent? "/" = none ∧ parent? "/a" = some "/" ∧
    parent? "a//b/./" = some "a" ∧ parent? "a/.." = some "a" ∧ parent? "." = some "" := by
  decide +kernel

end Path

end ModelTypes
