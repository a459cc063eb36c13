import ModelTypes.Naming
import ModelTypes.Proofs.Text.Upper

/-!
# Laws of Pascal case

Type names are put together from the names of models and columns, so one type can be reached by more
than one spelling. These laws say when two spellings meet: a Pascal-cased name stays as it is, it
does not matter whether it was capitalized first or afterwards, and a name can be taken apart at any
separator. A name that is capitalized only agrees with its Pascal case if it has no separator.
-/

namespace ModelTypes.Naming

open Text (upper upper_ne_nil upper_of_mem_upper underscore_mem_upper_iff)

variable {c : Char} {s t : List Char} {atStart : Bool}

/-! ## Capitals -/

theorem capitalize_upper : capitalize (upper c ++ s) = upper c ++ s := by
  cases h : upper c with
  | nil => exact absurd h upper_ne_nil
  | cons d ds =>
    have hd : upper d = [d] := upper_of_mem_upper (h ▸ List.mem_cons_self)
    rw [List.cons_append, capitalize, hd, List.singleton_append]

theorem mem_capitalize_iff : wordSeparator ∈ capitalize s ↔ wordSeparator ∈ s := by
  cases s with
  | nil => exact Iff.rfl
  | cons c s =>
    rw [capitalize, List.mem_append, List.mem_cons]
    exact or_congr (underscore_mem_upper_iff.trans eq_comm) Iff.rfl

/-! ## Words -/

theorem joinWords_separator : joinWords atStart (wordSeparator :: s) = joinWords true s :=
  if_pos rfl

theorem joinWords_start (h : c ≠ wordSeparator) :
    joinWords true (c :: s) = upper c ++ joinWords false s :=
  if_neg h

theorem joinWords_inside (h : c ≠ wordSeparator) :
    joinWords false (c :: s) = c :: joinWords false s :=
  if_neg h

theorem joinWords_append_of_not_mem (h : wordSeparator ∉ s) :
    joinWords false (s ++ t) = s ++ joinWords false t := by
  induction s with
  | nil => rfl
  | cons c s ih =>
    have hc : c ≠ wordSeparator := (List.ne_of_not_mem_cons h).symm
    rw [List.cons_append, joinWords_inside hc, ih (List.not_mem_of_not_mem_cons h),
      List.cons_append]

theorem joinWords_append_separator :
    joinWords atStart (s ++ wordSeparator :: t) = joinWords atStart s ++ pascalCase t := by
  induction s generalizing atStart with
  | nil => exact joinWords_separator
  | cons c s ih =>
    by_cases hc : c = wordSeparator
    · rw [hc, List.cons_append, joinWords_separator, joinWords_separator, ih]
    · cases atStart
      · rw [List.cons_append, joinWords_inside hc, joinWords_inside hc, ih, List.cons_append]
      · rw [List.cons_append, joinWords_start hc, joinWords_start hc, ih, List.append_assoc]

theorem separator_not_mem_joinWords : wordSeparator ∉ joinWords atStart s := by
  induction s generalizing atStart with
  | nil => exact List.not_mem_nil
  | cons c s ih =>
    by_cases hc : c = wordSeparator
    · rw [hc, joinWords_separator]
      exact ih
    · cases atStart
      · rw [joinWords_inside hc]
        exact List.not_mem_cons_of_ne_of_not_mem (Ne.symm hc) ih
      · rw [joinWords_start hc, List.mem_append]
        exact not_or.2 ⟨mt underscore_mem_upper_iff.1 hc, ih⟩

/-! ## Pascal case -/

theorem pascalCase_append_of_not_mem (h : wordSeparator ∉ s) (hne : s ≠ []) :
    pascalCase (s ++ t) = capitalize s ++ joinWords false t := by
  cases s with
  | nil => exact absurd rfl hne
  | cons c s =>
    have hc : c ≠ wordSeparator := (List.ne_of_not_mem_cons h).symm
    rw [List.cons_append, pascalCase, joinWords_start hc,
      joinWords_append_of_not_mem (List.not_mem_of_not_mem_cons h), capitalize, List.append_assoc]

theorem pascalCase_of_not_mem (h : wordSeparator ∉ s) : pascalCase s = capitalize s := by
  by_cases hne : s = []
  · rw [hne]
    rfl
  · have happend : pascalCase (s ++ []) = capitalize s ++ joinWords false [] :=
      pascalCase_append_of_not_mem h hne
    rwa [joinWords, List.append_nil, List.append_nil] at happend

@[simp] theorem capitalize_pascalCase : capitalize (pascalCase s) = pascalCase s := by
  unfold pascalCase
  induction s with
  | nil => rfl
  | cons c s ih =>
    by_cases hc : c = wordSeparator
    · rw [hc, joinWords_separator, ih]
    · rw [joinWords_start hc, capitalize_upper]

@[simp] theorem pascalCase_capitalize : pascalCase (capitalize s) = pascalCase s := by
  cases s with
  | nil => rfl
  | cons c s =>
    by_cases hc : c = wordSeparator
    · rw [hc]
      rfl
    · -- the capital may be several characters, none of them a separator
      have hcapital : wordSeparator ∉ upper c := mt underscore_mem_upper_iff.1 hc
      have hself : capitalize (upper c) = upper c := by
        simpa using capitalize_upper (c := c) (s := [])
      rw [capitalize, pascalCase_append_of_not_mem hcapital upper_ne_nil, hself, pascalCase,
        joinWords_start hc]

@[simp] theorem pascalCase_pascalCase : pascalCase (pascalCase s) = pascalCase s :=
  (pascalCase_of_not_mem separator_not_mem_joinWords).trans capitalize_pascalCase

theorem capitalize_eq_pascalCase_iff : capitalize s = pascalCase s ↔ wordSeparator ∉ s := by
  constructor
  · intro h
    rw [← mem_capitalize_iff, h]
    exact separator_not_mem_joinWords
  · exact fun h => (pascalCase_of_not_mem h).symm

end ModelTypes.Naming

namespace ModelTypes

open Naming

/-- Pascal case is stable, has no underscore, does not depend on whether a name was capitalized, and
is put together from both sides of any underscore; capitalizing alone comes to the same exactly for
names without one. -/
theorem toPascalCase_laws (s t : String) :
    toPascalCase (toPascalCase s) = toPascalCase s ∧
    '_' ∉ (toPascalCase s).toList ∧
    toPascalCase (capitalizeFirst s) = toPascalCase s ∧
    capitalizeFirst (toPascalCase s) = toPascalCase s ∧
    toPascalCase (s ++ "_" ++ t) = toPascalCase s ++ toPascalCase t ∧
    (capitalizeFirst s = toPascalCase s ↔ '_' ∉ s.toList) := by
  simp only [toPascalCase, capitalizeFirst, String.toList_ofList, String.toList_append]
  refine ⟨by simp, separator_not_mem_joinWords, by simp, by simp, ?joined, ?same⟩
  case joined =>
    rw [← String.ofList_append, List.append_assoc]
    exact congrArg String.ofList joinWords_append_separator
  case same => rw [String.ofList_inj, capitalize_eq_pascalCase_iff, wordSeparator]

example : toPascalCase ("_user_" ++ "_" ++ "ßa_b") = "User" ++ "SSaB" := by
  decide +kernel

end ModelTypes
