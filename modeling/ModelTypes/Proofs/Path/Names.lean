import Mathlib.Data.List.TakeWhile
import ModelTypes.FileTree

/-!
# The names in a path

A path is cut at its slashes. Joining a name to a path adds it to the names of the path, whether or
not the path ends in a slash; a path that is empty or absolute stays so.
-/

namespace ModelTypes

namespace Path

variable {s t : List Char} {root : Path} {name : String}

theorem pieces_ne_nil : pieces s ≠ [] := by
  cases s with
  | nil => simp [pieces]
  | cons c s =>
    unfold pieces
    split
    · simp
    · split <;> simp

theorem pieces_append : pieces (s ++ '/' :: t) = pieces s ++ pieces t := by
  induction s with
  | nil => simp [pieces]
  | cons c s ih =>
    by_cases hc : c = '/'
    · simp [pieces, hc, ih]
    · cases hs : pieces s with
      | nil => exact absurd hs pieces_ne_nil
      | cons first others => simp [pieces, hc, ih, hs]

theorem pieces_of_not_mem (h : '/' ∉ s) : pieces s = [s] := by
  induction s with
  | nil => rfl
  | cons c s ih =>
    rw [List.mem_cons, not_or] at h
    obtain ⟨hc, hs⟩ := h
    simp [pieces, ih hs, Ne.symm hc]

def parts (s : List Char) : List String :=
  (pieces s).map String.ofList

theorem parts_append : parts (s ++ '/' :: t) = parts s ++ parts t := by
  simp [parts, pieces_append]

theorem parts_of_not_mem (h : '/' ∉ s) : parts s = [String.ofList s] := by
  simp [parts, pieces_of_not_mem h]

theorem parts_name (h : '/' ∉ name.toList) : parts name.toList = [name] := by
  rw [parts_of_not_mem h, String.ofList_toList]

end Path

namespace FileTree

open ModelTypes.Path (parts parts_append parts_of_not_mem parts_name)

variable {s : List Char} {root : Path} {name : String}

theorem exists_parts_eq (path : Path) :
    ∃ dots, (∀ n ∈ dots, n = "") ∧ parts path.toList = names path ++ dots := by
  refine ⟨((parts path.toList).reverse.takeWhile (· = "")).reverse, ?_, ?_⟩
  · intro n hn
    simpa using List.mem_takeWhile_imp (List.mem_reverse.1 hn)
  · show _ = ((parts path.toList).reverse.dropWhile (· = "")).reverse ++ _
    rw [← List.reverse_append, List.takeWhile_append_dropWhile, List.reverse_reverse]

theorem names_of_parts (h : parts path.toList = ns ++ [name]) (hne : name ≠ "") :
    names path = ns ++ [name] := by
  unfold parts at h
  simp [names, h, hne]

/-- The names of a path with something behind it. -/
def stem (root : Path) : List String :=
  if root = "" then []
  else if endsInSlash root then (parts root.toList).dropLast
  else parts root.toList

theorem toList_of_endsInSlash (h : endsInSlash root = true) :
    root.toList = root.toList.dropLast ++ '/' :: [] := by
  rw [endsInSlash, beq_iff_eq, List.getLast?_eq_some_iff] at h
  obtain ⟨s, hs⟩ := h
  simp [hs]

theorem isAbsolute_of_not_mem (h : '/' ∉ name.toList) : Path.isAbsolute name = false := by
  unfold Path.isAbsolute
  cases hs : name.toList with
  | nil => rfl
  | cons c s =>
    have hc : c ≠ '/' := by
      rintro rfl
      exact h (by simp [hs])
    simpa using hc

def slash (root : Path) : List Char :=
  if root = "" ∨ endsInSlash root then [] else ['/']

theorem toList_join (h : '/' ∉ name.toList) :
    (Path.join root name).toList = root.toList ++ (slash root ++ name.toList) := by
  unfold Path.join slash endsInSlash
  by_cases hempty : root = ""
  · simp [hempty]
  · by_cases hslash : root.toList.getLast? = some '/'
    · simp [isAbsolute_of_not_mem h, hempty, hslash]
    · simp [isAbsolute_of_not_mem h, hempty, hslash]

theorem parts_join (h : '/' ∉ name.toList) :
    parts (Path.join root name).toList = stem root ++ [name] := by
  rw [toList_join h]
  unfold stem slash
  by_cases hempty : root = ""
  · simp [hempty, parts_name h]
  by_cases hslash : endsInSlash root = true
  · have hroot := toList_of_endsInSlash hslash
    simp only [hempty, hslash, or_true, if_true, if_false, List.nil_append]
    rw [hroot, List.append_assoc, List.cons_append, List.nil_append, parts_append, parts_append,
      parts_name h]
    simp [parts, Path.pieces]
  · simp [hempty, hslash, parts_append, parts_name h]

theorem names_join (h : '/' ∉ name.toList) (hne : name ≠ "") :
    names (Path.join root name) = stem root ++ [name] :=
  names_of_parts (parts_join h) hne

theorem isAbsolute_join (h : '/' ∉ name.toList) :
    Path.isAbsolute (Path.join root name) = Path.isAbsolute root := by
  by_cases hempty : root = ""
  · subst hempty
    have hname := isAbsolute_of_not_mem h
    unfold Path.isAbsolute at hname ⊢
    rw [toList_join h]
    simpa [slash] using hname
  · unfold Path.isAbsolute
    rw [toList_join h]
    cases hroot : root.toList with
    | nil => exact absurd (String.toList_eq_nil_iff.1 hroot) hempty
    | cons c s => rfl

theorem endsInSlash_join (h : '/' ∉ name.toList) (hne : name ≠ "") :
    endsInSlash (Path.join root name) = false := by
  unfold endsInSlash
  rw [toList_join h, ← List.append_assoc, beq_eq_false_iff_ne]
  intro hlast
  obtain ⟨c, hc⟩ := Option.ne_none_iff_exists'.1
    (mt List.getLast?_eq_none_iff.1 (mt String.toList_eq_nil_iff.1 hne))
  rw [List.getLast?_append, hc] at hlast
  cases hlast
  exact h (List.mem_of_getLast? hc)

theorem join_ne_empty (h : '/' ∉ name.toList) (hne : name ≠ "") : Path.join root name ≠ "" := by
  intro hempty
  have htext := @toList_join root name h
  rw [hempty] at htext
  simp [hne] at htext

theorem stem_join (h : '/' ∉ name.toList) (hne : name ≠ "") :
    stem (Path.join root name) = stem root ++ [name] := by
  unfold stem
  rw [if_neg (join_ne_empty h hne), endsInSlash_join h hne, parts_join h]
  rfl

theorem not_mem_stem (h : ".." ∉ names root) : ".." ∉ stem root := by
  obtain ⟨dots, hdots, hparts⟩ := exists_parts_eq root
  have hroot : ".." ∉ parts root.toList := by
    rw [hparts, List.mem_append, not_or]
    refine ⟨h, fun hmem => ?_⟩
    have := hdots _ hmem
    contradiction
  unfold stem
  split
  · simp
  · split
    · exact fun hmem => hroot (List.dropLast_subset _ hmem)
    · exact hroot

end FileTree

end ModelTypes
