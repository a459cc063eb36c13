import ModelTypes.Proofs.Declaration.NormalFiles
import ModelTypes.Proofs.Declaration.Quoting

/-!
# Declarations of one line and of several

How many lines a declaration takes depends on its type alone: an object with properties breaks the
line wherever it stands, and a union of the top level is broken if it is too long. Declarations of
several lines stand between blank lines.
-/

namespace ModelTypes

open Grammar
open Text (isIdentifier isIdentRest)

/-! ## Pieces without line feeds -/

theorem newline_not_mem_of_forall {p : Char → Bool} {u : List Char} (h : ∀ c ∈ u, p c)
    (hp : p '\n' = false) : '\n' ∉ u := by
  intro hmem
  have := h _ hmem
  rw [hp] at this
  cases this

theorem isIdentRest_of_isIdentifier (h : isIdentifier u) : ∀ c ∈ u, isIdentRest c := by
  cases u with
  | nil => exact List.forall_mem_nil _
  | cons c cs =>
    obtain ⟨hc, hcs⟩ := Bool.and_eq_true_iff.1 h
    exact List.forall_mem_cons.2 ⟨Text.isIdentRest_of_isIdentStart hc, List.all_eq_true.1 hcs⟩

theorem newline_not_mem_identifier (h : isIdentifier u) : '\n' ∉ u :=
  newline_not_mem_of_forall (isIdentRest_of_isIdentifier h) rfl

theorem newline_not_mem_dottedName (h : DottedName u) : '\n' ∉ u := by
  induction h with
  | identifier hu => exact newline_not_mem_identifier hu
  | dotted hu _ ih => simp [newline_not_mem_identifier hu, ih]

theorem newline_not_mem_encode {style : Style} :
    '\n' ∉ Literal.encode style.preferredQuote v := by
  intro h
  cases Literal.isControl_of_mem_encode Style.isQuote_preferredQuote h

theorem Style.newline_not_mem_indent {style : Style} : '\n' ∉ style.indent := by
  rw [Style.indent]
  split <;> simp

theorem Style.newline_not_mem_terminator {style : Style} : '\n' ∉ style.terminator := by
  rw [Style.terminator]
  split <;> simp

/-! ## Objects with properties -/

namespace TypeExpr

/-- The first type is the second one or stands in it, at any depth. -/
inductive Occurs (u : TypeExpr) : TypeExpr → Prop
  | here : Occurs u u
  | maybe : Occurs u t → Occurs u (.maybe t)
  | array : Occurs u t → Occurs u (.array t)
  | union : m ∈ ms → Occurs u m → Occurs u (.union ms)
  | property : p ∈ ps → Occurs u (Property.value p) → Occurs u (.object exact ps)

def HasProperty (t : TypeExpr) : Prop :=
  ∃ exact ps, ps ≠ [] ∧ Occurs (.object exact ps) t

variable {style : Style} {level : Nat} {t : TypeExpr}

theorem hasProperty_maybe : (maybe t).HasProperty ↔ t.HasProperty := by
  constructor
  · rintro ⟨exact, ps, hne, h⟩
    cases h with
    | maybe h => exact ⟨exact, ps, hne, h⟩
  · rintro ⟨exact, ps, hne, h⟩
    exact ⟨exact, ps, hne, .maybe h⟩

theorem hasProperty_array : (array t).HasProperty ↔ t.HasProperty := by
  constructor
  · rintro ⟨exact, ps, hne, h⟩
    cases h with
    | array h => exact ⟨exact, ps, hne, h⟩
  · rintro ⟨exact, ps, hne, h⟩
    exact ⟨exact, ps, hne, .array h⟩

theorem hasProperty_union : (union ms).HasProperty ↔ ∃ m ∈ ms, m.HasProperty := by
  constructor
  · rintro ⟨exact, ps, hne, h⟩
    cases h with
    | union hm h => exact ⟨_, hm, exact, ps, hne, h⟩
  · rintro ⟨m, hm, exact, ps, hne, h⟩
    exact ⟨exact, ps, hne, .union hm h⟩

theorem hasProperty_object : (object exact ps).HasProperty ↔ ps ≠ [] := by
  constructor
  · rintro ⟨exact', ps', hne, h⟩
    cases h with
    | here => exact hne
    | property hp _ => exact List.ne_nil_of_mem hp
  · intro hne
    exact ⟨exact, ps, hne, .here⟩

theorem not_hasProperty_named : ¬ (named name).HasProperty := by
  rintro ⟨exact, ps, -, h⟩
  cases h

theorem not_hasProperty_literal : ¬ (literal value).HasProperty := by
  rintro ⟨exact, ps, -, h⟩
  cases h

theorem newline_mem_parenthesizeIf {u : List Char} : '\n' ∈ parenthesizeIf c u ↔ '\n' ∈ u := by
  rw [parenthesizeIf]
  split <;> simp

theorem newline_mem_printMembers {ms : List TypeExpr} :
    '\n' ∈ " | ".toList.intercalate (printMembers style level ms) ↔
      ∃ m ∈ ms, '\n' ∈ m.printMember style level := by
  rw [printMembers_eq]
  cases ms with
  | nil => simp [List.intercalate]
  | cons m ms => simp [intercalate_cons]

theorem newline_mem_print (ht : t.Printable) : '\n' ∈ t.print style level ↔ t.HasProperty := by
  -- only objects with properties are printed at another level, and these are not looked into
  induction ht with
  | named h =>
    rw [print]
    exact iff_of_false (newline_not_mem_dottedName h) not_hasProperty_named
  | literal =>
    rw [print]
    exact iff_of_false newline_not_mem_encode not_hasProperty_literal
  | maybe _ ih => simp [print, newline_mem_parenthesizeIf, ih, hasProperty_maybe]
  | array _ ih => simp [print, newline_mem_parenthesizeIf, ih, hasProperty_array]
  | @union ms _ _ ih =>
    rw [print, newline_mem_printMembers, hasProperty_union]
    refine exists_congr fun m => and_congr_right fun hm => ?_
    rw [printMember, newline_mem_parenthesizeIf, ih m hm]
  | @object ps exact _ _ =>
    rw [hasProperty_object]
    cases ps with
    | nil => cases exact <;> simp [print, opening, closing]
    | cons p ps => simp [print]

theorem newline_mem_printMember (ht : t.Printable) :
    '\n' ∈ t.printMember style level ↔ t.HasProperty := by
  rw [printMember, newline_mem_parenthesizeIf, newline_mem_print ht]

end TypeExpr

/-! ## Declarations -/

namespace Declaration

variable {style : Style} {d : Declaration}

def bare (d : Declaration) : Declaration :=
  { d with comments := [] }

def oneLine (style : Style) (d : Declaration) : List Char :=
  d.head ++ ' ' :: d.type.print style 0 ++ style.terminator

/-- The declaration takes several lines, its comments apart. -/
def SpansLines (style : Style) (d : Declaration) : Prop :=
  '\n' ∈ d.bare.print style

theorem print_bare : d.bare.print style = d.head ++ d.printBody style ++ style.terminator := rfl

theorem print_eq : d.print style = Comment.printLines d.comments ++ d.bare.print style := by
  rw [print_bare, print]
  simp

theorem newline_not_mem_head (h : isIdentifier d.name.toList) : '\n' ∉ d.head := by
  obtain ⟨comments, ⟨declared, exported⟩, name, t⟩ := d
  have hname : '\n' ∉ name.toList := newline_not_mem_identifier h
  cases declared <;> cases exported <;> simpa [head, Modifier.print] using hname

theorem spansLines_iff (h : isIdentifier d.name.toList) :
    d.SpansLines style ↔ '\n' ∈ d.printBody style := by
  simp [SpansLines, print_bare, newline_not_mem_head h, Style.newline_not_mem_terminator]

theorem fits_eq_false_iff (ht : d.type.Printable) :
    d.fits style (d.type.print style 0) = false ↔
      d.type.HasProperty ∨ style.printWidth < (d.oneLine style).length := by
  have hlength : (d.oneLine style).length =
      d.head.length + 1 + (d.type.print style 0).length + style.terminator.length := by
    simp only [oneLine, List.length_append, List.length_cons]
    omega
  have hflat : '\n' ∈ d.type.print style 0 ↔ d.type.HasProperty := TypeExpr.newline_mem_print ht
  rw [hlength, ← hflat, fits, Bool.and_eq_false_iff]
  simp

theorem printBody_union (hd : d.type = .union ms) : d.printBody style =
    if d.fits style (d.type.print style 0) then ' ' :: d.type.print style 0
    else brokenUnion style ms := by
  rw [printBody]
  split
  · next ms' hms =>
    obtain rfl := TypeExpr.union.inj (hd.symm.trans hms)
    rfl
  · next hne => exact absurd hd (hne ms)

theorem printBody_of_not_isUnion (hd : d.type.isUnion = false) :
    d.printBody style = ' ' :: d.type.print style 0 := by
  rw [printBody]
  split
  · next ms hms =>
    rw [hms] at hd
    cases hd
  · rfl

theorem brokenUnion_eq_flatMap {ms : List TypeExpr} : brokenUnion style ms =
    ms.flatMap fun m => '\n' :: style.indent ++ ['|', ' '] ++ m.printMember style 1 := by
  rw [brokenUnion, TypeExpr.printMembers_eq, List.flatMap_map]
  rfl

theorem newline_mem_printBody_union (hd : d.type = .union ms) (ht : d.type.Printable) :
    '\n' ∈ d.printBody style ↔ d.fits style (d.type.print style 0) = false := by
  rw [printBody_union hd]
  cases hfits : d.fits style (d.type.print style 0) with
  | true =>
    have hflat : '\n' ∉ d.type.print style 0 := by
      simp only [fits, Bool.and_eq_true, Bool.not_eq_true'] at hfits
      simpa using hfits.1
    simpa using hflat
  | false =>
    -- a union has a member, and with it a line
    rw [hd] at ht
    cases ht with
    | union hne _ =>
      obtain ⟨m, ms, rfl⟩ := List.exists_cons_of_ne_nil hne
      simp [brokenUnion_eq_flatMap]

theorem spansLines_iff_type (h : isIdentifier d.name.toList) (ht : d.type.Printable) :
    d.SpansLines style ↔ d.type.HasProperty ∨
      d.type.isUnion ∧ style.printWidth < (d.oneLine style).length := by
  rw [spansLines_iff h]
  cases hunion : d.type.isUnion with
  | false =>
    rw [printBody_of_not_isUnion hunion]
    simpa using TypeExpr.newline_mem_print ht
  | true =>
    obtain ⟨ms, hms⟩ : ∃ ms, d.type = .union ms := by
      cases htype : d.type with
      | union ms => exact ⟨ms, rfl⟩
      | _ => rw [htype] at hunion; cases hunion
    rw [newline_mem_printBody_union hms ht, fits_eq_false_iff ht]
    simp

theorem print_of_not_spansLines (h : isIdentifier d.name.toList) (ht : d.type.Printable)
    (hd : ¬ d.SpansLines style) : d.bare.print style = d.oneLine style := by
  rw [spansLines_iff h] at hd
  rw [print_bare, oneLine]
  cases hunion : d.type with
  | union ms =>
    rw [newline_mem_printBody_union hunion ht, Bool.not_eq_false] at hd
    rw [printBody_union hunion, if_pos hd, hunion]
  | _ => rw [printBody_of_not_isUnion (by rw [hunion]; rfl), hunion]

theorem print_of_spansLines (h : isIdentifier d.name.toList) (ht : d.type.Printable)
    (hms : d.type = .union ms) (hd : d.SpansLines style) : d.bare.print style =
      d.head ++ (ms.flatMap fun m => '\n' :: style.indent ++ ['|', ' '] ++ m.printMember style 1) ++
        style.terminator := by
  rw [spansLines_iff h, newline_mem_printBody_union hms ht] at hd
  rw [print_bare, printBody_union hms, hd, brokenUnion_eq_flatMap]
  rfl

theorem contains_newline_print : (d.print style).contains '\n' ↔
    d.comments ≠ [] ∨ d.SpansLines style := by
  have hcomments : '\n' ∈ Comment.printLines d.comments ↔ d.comments ≠ [] := by
    cases d.comments with
    | nil => simp [Comment.printLines]
    | cons c cs => simp [Comment.printLines]
  rw [List.contains_iff_mem, print_eq, List.mem_append, hcomments, SpansLines]

end Declaration

/-! ## Files -/

namespace SourceFile

variable {style : Style} {ds ds' : List Declaration} {d : Declaration}

theorem printAfter_append : printAfter style multiline (ds ++ d :: ds') =
    printAfter style multiline (ds ++ [d]) ++ printAfter style ((d.print style).contains '\n') ds' := by
  -- what stands before a declaration is seen only in whether that had several lines
  induction ds generalizing multiline with
  | nil => simp [printAfter]
  | cons e ds ih => simp [printAfter, ih]

theorem exists_printAfter (style : Style) (multiline : Bool) (ds : List Declaration)
    (d : Declaration) : ∃ front, printAfter style multiline (ds ++ [d]) =
      front ++ d.print style ++ ['\n'] := by
  induction ds generalizing multiline with
  | nil => exact ⟨_, by rw [List.nil_append, printAfter, printAfter, List.append_nil]⟩
  | cons e ds ih =>
    obtain ⟨front, hfront⟩ := ih ((e.print style).contains '\n')
    exact ⟨_, by rw [List.cons_append, printAfter, hfront, ← List.append_assoc, ← List.append_assoc]⟩

theorem printMain_append {header trailing : List Comment} :
    printMain style ⟨header, ds ++ d :: ds', trailing⟩ =
      printMain style ⟨header, ds ++ [d], []⟩ ++
        printAfter style ((d.print style).contains '\n') ds' := by
  cases ds with
  | nil => simp [printMain, printAfter]
  | cons e ds =>
    simp only [printMain, List.cons_append]
    rw [printAfter_append]
    simp only [List.append_assoc]

theorem exists_printMain (style : Style) (header : List Comment) (ds : List Declaration)
    (d : Declaration) : ∃ front, printMain style ⟨header, ds ++ [d], []⟩ =
      front ++ d.print style ++ ['\n'] := by
  cases ds with
  | nil =>
    refine ⟨Comment.printLines header ++ (if header.isEmpty then [] else ['\n']), ?_⟩
    simp [printMain, printAfter]
  | cons e ds =>
    obtain ⟨front, hfront⟩ := exists_printAfter style ((e.print style).contains '\n') ds d
    refine ⟨Comment.printLines header ++ ((if header.isEmpty then [] else ['\n']) ++
      e.print style ++ ['\n'] ++ front), ?_⟩
    simp only [printMain, List.cons_append, hfront, List.append_assoc]

theorem exists_print_eq_printMain_append (style : Style) (file : SourceFile) :
    ∃ back, file.print style = file.printMain style ++ back := by
  rw [print]
  split
  · exact ⟨[], (List.append_nil _).symm⟩
  · exact ⟨_, List.append_assoc _ _ _⟩

/-- Where two declarations meet, the file printed up to the first of them goes on with a blank line
or without one. -/
theorem print_consecutive (style : Style) {file : SourceFile}
    (h : file.declarations = ds ++ d :: d' :: ds') : ∃ front gap back,
      ({ file with declarations := ds ++ [d], trailing := [] } : SourceFile).print style =
        front ++ d.print style ++ ['\n'] ∧
      file.print style =
        front ++ d.print style ++ ['\n'] ++ gap ++ d'.print style ++ ['\n'] ++ back ∧
      gap = if (d'.print style).contains '\n' || (d.print style).contains '\n' then ['\n']
        else [] := by
  obtain ⟨header, declarations, trailing⟩ := file
  obtain rfl : declarations = ds ++ d :: d' :: ds' := h
  obtain ⟨front, hfront⟩ := exists_printMain style header ds d
  obtain ⟨back, hback⟩ :=
    exists_print_eq_printMain_append style ⟨header, ds ++ d :: d' :: ds', trailing⟩
  refine ⟨front, _, printAfter style ((d'.print style).contains '\n') ds' ++ back, ?_, ?_, rfl⟩
  · rw [print, hfront]
    rfl
  · rw [hback, printMain_append, hfront, printAfter]
    simp only [List.append_assoc]

/-- The lines of the canonical form. A declaration spans several of them if its type has properties
or is a union that is too long for one, and is broken into a line for each member then. Between two
declarations there is a blank line if one of them spans several lines or has comments. -/
theorem print_lines (h : parse source.toList = .ok file) (style : Style) :
    canonicalize style source = .ok (String.ofList (file.print style)) ∧
    (∀ d ∈ file.declarations,
      (d.SpansLines style ↔ d.type.HasProperty ∨
        d.type.isUnion ∧ style.printWidth < (d.oneLine style).length) ∧
      (¬ d.SpansLines style → d.bare.print style = d.oneLine style ∧
        (d.type.isUnion → (d.bare.print style).length ≤ style.printWidth)) ∧
      (d.SpansLines style → ∀ ms, d.type = .union ms →
        d.bare.print style = d.head ++
          (ms.flatMap fun m => '\n' :: style.indent ++ ['|', ' '] ++ m.printMember style 1) ++
            style.terminator ∧
        ∀ m ∈ ms, '\n' ∈ m.printMember style 1 ↔ m.HasProperty)) ∧
    ∀ ds d d' ds', file.declarations = ds ++ d :: d' :: ds' → ∃ front gap back,
      ({ file with declarations := ds ++ [d], trailing := [] } : SourceFile).print style =
        front ++ d.print style ++ ['\n'] ∧
      file.print style =
        front ++ d.print style ++ ['\n'] ++ gap ++ d'.print style ++ ['\n'] ++ back ∧
      (gap = ['\n'] ∨ gap = []) ∧
      (gap = ['\n'] ↔ (d.SpansLines style ∨ d.comments ≠ []) ∨
        d'.SpansLines style ∨ d'.comments ≠ []) := by
  have hnormal : file.Normal := normal_of_parse h
  refine ⟨canonicalize_of_parse h style, ?declaration, ?consecutive⟩
  case declaration =>
    intro d hd
    obtain ⟨hname, htype, -⟩ := hnormal.declarations d hd
    have ht : d.type.Printable := htype.printable
    have hspans : d.SpansLines style ↔ d.type.HasProperty ∨
        d.type.isUnion ∧ style.printWidth < (d.oneLine style).length :=
      Declaration.spansLines_iff_type hname ht
    refine ⟨hspans, ?_, ?_⟩
    · intro hone
      have hprint := Declaration.print_of_not_spansLines hname ht hone
      refine ⟨hprint, fun hunion => ?_⟩
      rw [hspans] at hone
      rw [hprint]
      exact not_lt.1 fun hlong => hone (.inr ⟨hunion, hlong⟩)
    · intro hlines ms hms
      refine ⟨Declaration.print_of_spansLines hname ht hms hlines, fun m hm => ?_⟩
      rw [hms] at ht
      cases ht with
      | union _ hmembers => exact TypeExpr.newline_mem_printMember (hmembers m hm)
  case consecutive =>
    intro ds d d' ds' hds
    obtain ⟨front, gap, back, hfront, hprint, hgap⟩ := print_consecutive style hds
    refine ⟨front, gap, back, hfront, hprint, ?_, ?_⟩
    · rw [hgap]
      split
      · exact .inl rfl
      · exact .inr rfl
    · -- the blank line is decided on the printed texts: a line feed in one is a span of lines
      rw [hgap, or_comm, or_comm (b := d'.comments ≠ []), or_comm (b := d.comments ≠ []),
        ← Declaration.contains_newline_print, ← Declaration.contains_newline_print,
        ← Bool.or_eq_true]
      split
      · next hlines => exact iff_of_true rfl hlines
      · next hlines => exact iff_of_false nofun hlines

def unionDeclaration : Declaration :=
  ⟨[], ⟨false, false⟩, "A", .union [.object true [], .named "B"]⟩

def commentedDeclaration : Declaration :=
  ⟨[.line " c"], ⟨false, true⟩, "D", .named "E"⟩

theorem parse_unionDeclaration :
    parse "type A = {||} | B\n// c\nexport type D=E".toList =
      .ok ⟨[], [unionDeclaration, commentedDeclaration], []⟩ := by
  with_unfolding_all rfl

theorem print_lines_sample :
    parse "type A = {||} | B\n// c\nexport type D=E".toList =
        .ok ⟨[], [unionDeclaration, commentedDeclaration], []⟩ ∧
      (unionDeclaration.SpansLines { printWidth := 17 } ↔ unionDeclaration.type.HasProperty ∨
        unionDeclaration.type.isUnion ∧
          17 < (unionDeclaration.oneLine { printWidth := 17 }).length) ∧
      ∃ front gap back,
        (⟨[], [unionDeclaration], []⟩ : SourceFile).print { printWidth := 17 } =
          front ++ unionDeclaration.print { printWidth := 17 } ++ ['\n'] ∧
        (⟨[], [unionDeclaration, commentedDeclaration], []⟩ : SourceFile).print
            { printWidth := 17 } =
          front ++ unionDeclaration.print { printWidth := 17 } ++ ['\n'] ++ gap ++
            commentedDeclaration.print { printWidth := 17 } ++ ['\n'] ++ back ∧
        (gap = ['\n'] ∨ gap = []) ∧
        (gap = ['\n'] ↔
          (unionDeclaration.SpansLines { printWidth := 17 } ∨ unionDeclaration.comments ≠ []) ∨
          commentedDeclaration.SpansLines { printWidth := 17 } ∨
            commentedDeclaration.comments ≠ []) := by
  have h := print_lines parse_unionDeclaration { printWidth := 17 }
  exact ⟨parse_unionDeclaration, (h.2.1 unionDeclaration (by simp)).1,
    h.2.2 [] unionDeclaration commentedDeclaration [] rfl⟩

end SourceFile

end ModelTypes
