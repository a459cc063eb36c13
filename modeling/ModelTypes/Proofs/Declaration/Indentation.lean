import ModelTypes.Proofs.Declaration.Braces
import ModelTypes.Proofs.Declaration.Lines

/-!
# Indentation

A line that begins inside of a printed type is indented by one level for each object that is open
there, and one more in a broken union. How many objects are open is read off the text in front of
the line, where braces in literals do not count.
-/

namespace ModelTypes

open Grammar
open Literal (isQuote)
open Text (isIdentStart isIdentifier)

namespace Grammar

/-! ## Open objects -/

/-- A text that begins inside of one number of objects and ends inside of another. -/
inductive Nested : Nat → List Char → Nat → Prop
  | nil : Nested n [] n
  | char : isQuote c = false → ¬ IsBrace c → Nested n u m → Nested n (c :: u) m
  | literal : LiteralText u v → Nested n w m → Nested n (u ++ w) m
  | opening : Nested (n + 1) u m → Nested n ('{' :: u) m
  | closing : Nested n u m → Nested (n + 1) ('}' :: u) m

variable {u v w : List Char} {n m k : Nat}

theorem Nested.append (hu : Nested n u m) (hv : Nested m v k) : Nested n (u ++ v) k := by
  induction hu with
  | nil => exact hv
  | char hquote hc _ ih => exact .char hquote hc (ih hv)
  | literal hu _ ih =>
    rw [List.append_assoc]
    exact .literal hu (ih hv)
  | opening _ ih => exact .opening (ih hv)
  | closing _ ih => exact .closing (ih hv)

theorem nested_of_outside (h : Outside (¬ IsBrace ·) u) : Nested n u n := by
  induction h with
  | nil => exact .nil
  | char hquote hc _ ih => exact .char hquote hc ih
  | literal hu _ ih => exact .literal hu ih

theorem Nested.of_cons (h : Nested n (c :: u) m) (hc : isQuote c = false) :
    ¬ IsBrace c ∧ Nested n u m ∨ c = '{' ∧ Nested (n + 1) u m ∨
      c = '}' ∧ ∃ n', n = n' + 1 ∧ Nested n' u m := by
  generalize hs : c :: u = s at h
  cases h with
  | nil => cases hs
  | char _ hbrace hu =>
    cases hs
    exact .inl ⟨hbrace, hu⟩
  | literal hu _ => exact absurd hs.symm (hu.ne_cons hc)
  | opening hu =>
    cases hs
    exact .inr (.inl ⟨rfl, hu⟩)
  | closing hu =>
    cases hs
    exact .inr (.inr ⟨rfl, _, rfl, hu⟩)

theorem Nested.of_literal (hu : LiteralText u v) (h : Nested n (u ++ w) m) : Nested n w m := by
  generalize hs : u ++ w = s at h
  cases h with
  | nil =>
    cases hu with
    | quoted _ _ => cases hs
  | char hquote _ _ => exact absurd hs (hu.ne_cons hquote)
  | literal hu' hw =>
    rw [hu.unique hu' hs]
    exact hw
  | opening _ => exact absurd hs (hu.ne_cons rfl)
  | closing _ => exact absurd hs (hu.ne_cons rfl)

theorem Nested.unique (h : Nested n u m) (h' : Nested n u k) : m = k := by
  -- a quote opens one literal at most, and a brace outside of literals counts one way
  induction h with
  | nil =>
    generalize hs : [] = s at h'
    cases h' with
    | nil => rfl
    | literal hu _ =>
      cases hu with
      | quoted _ _ => cases hs
    | _ => cases hs
  | char hquote hc _ ih =>
    rcases h'.of_cons hquote with ⟨-, h'⟩ | ⟨rfl, -⟩ | ⟨rfl, -⟩
    · exact ih h'
    · exact absurd (.inl rfl) hc
    · exact absurd (.inr rfl) hc
  | literal hu _ ih => exact ih (h'.of_literal hu)
  | opening _ ih =>
    rcases h'.of_cons rfl with ⟨hc, -⟩ | ⟨-, h'⟩ | ⟨hc, -⟩
    · exact absurd (.inl rfl) hc
    · exact ih h'
    · cases hc
  | closing _ ih =>
    rcases h'.of_cons rfl with ⟨hc, -⟩ | ⟨hc, -⟩ | ⟨-, n', hn, h'⟩
    · exact absurd (.inr rfl) hc
    · cases hc
    · cases hn
      exact ih h'

theorem nested_opening : Nested n (TypeExpr.opening exact) (n + 1) := by
  cases exact with
  | true => exact .opening (.char rfl (by simp [IsBrace]) .nil)
  | false => exact .opening .nil

theorem nested_closing : Nested (n + 1) (TypeExpr.closing exact) n := by
  cases exact with
  | true => exact .char rfl (by simp [IsBrace]) (.closing .nil)
  | false => exact .closing .nil

theorem outside_identifier (h : isIdentifier u) : Outside (¬ IsBrace ·) u := by
  refine outside_of_forall fun c hc => ?_
  have hrest := isIdentRest_of_isIdentifier h c hc
  constructor
  · refine Bool.eq_false_iff.2 fun hquote => ?_
    rcases Literal.eq_of_isQuote hquote with rfl | rfl <;> cases hrest
  · rintro (rfl | rfl) <;> cases hrest

theorem outside_dottedName (h : DottedName u) : Outside (¬ IsBrace ·) u := by
  induction h with
  | identifier hu => exact outside_identifier hu
  | dotted hu _ ih => exact (outside_identifier hu).append (.char rfl (by simp [IsBrace]) ih)

end Grammar

/-! ## Lines -/

/-- A text that begins with a line inside of `depth` objects, indented by a level for each of them
and by `base` levels more. -/
inductive LineStart (style : Style) (base depth : Nat) : List Char → Prop
  | key : isIdentStart c ∨ isQuote c → LineStart style base depth
      (style.indentation (base + depth) ++ c :: r)
  | member : LineStart style base depth (style.indentation (base + depth) ++ '|' :: ' ' :: r)
  | closing : 0 < depth → LineStart style base depth
      (style.indentation (base + (depth - 1)) ++ (TypeExpr.closing exact ++ r))

/-- A text from inside of `n` objects to inside of `m`. Each line that begins in it is indented by
the objects that are open there. -/
structure Indented (style : Style) (base n : Nat) (s : List Char) (m : Nat) : Prop where
  nested : Nested n s m
  lines : ∀ u v, s = u ++ '\n' :: v → ∃ depth, Nested n u depth ∧ LineStart style base depth v

section

variable {style : Style} {base n m k level : Nat} {s s' u v w : List Char}

theorem LineStart.append (h : LineStart style base k v) : LineStart style base k (v ++ w) := by
  cases h with
  | key hc =>
    rw [List.append_assoc]
    exact .key hc
  | member =>
    rw [List.append_assoc]
    exact .member
  | closing hk =>
    rw [List.append_assoc, List.append_assoc]
    exact .closing hk

theorem indented_of_not_mem (hs : Nested n s m) (h : '\n' ∉ s) : Indented style base n s m := by
  refine ⟨hs, ?_⟩
  rintro u v rfl
  simp at h

theorem Indented.append (h : Indented style base n s m) (h' : Indented style base m s' k) :
    Indented style base n (s ++ s') k := by
  refine ⟨h.nested.append h'.nested, fun u v huv => ?_⟩
  -- the line begins in the first text or in the second
  rcases List.append_eq_append_iff.1 huv with ⟨a, rfl, ha⟩ | ⟨a, rfl, ha⟩
  · obtain ⟨depth, hu, hv⟩ := h'.lines a v ha
    exact ⟨depth, h.nested.append hu, hv⟩
  · cases a with
    | nil =>
      obtain ⟨depth, hu, hv⟩ := h'.lines [] v ha.symm
      exact ⟨depth, by simpa using h.nested.append hu, hv⟩
    | cons c a =>
      obtain ⟨rfl, rfl⟩ := List.cons.inj ha
      obtain ⟨depth, hu, hv⟩ := h.lines u a rfl
      exact ⟨depth, hu, hv.append⟩

theorem indented_line (hs : Nested n s m) (h : '\n' ∉ s) (hline : LineStart style base n s) :
    Indented style base n ('\n' :: s) m := by
  refine ⟨.char rfl (by simp [IsBrace]) hs, ?_⟩
  intro u v huv
  cases u with
  | nil =>
    cases huv
    exact ⟨n, .nil, hline⟩
  | cons c u =>
    obtain ⟨rfl, rfl⟩ := List.cons.inj huv
    simp at h

theorem indented_of_outside (hs : Outside (¬ IsBrace ·) s) (h : '\n' ∉ s) :
    Indented style base n s n :=
  indented_of_not_mem (nested_of_outside hs) h

theorem indented_of_forall (h : ∀ c ∈ s, (isQuote c = false ∧ ¬ IsBrace c) ∧ c ≠ '\n') :
    Indented style base n s n :=
  indented_of_outside (outside_of_forall fun c hc => (h c hc).1) fun hline => (h _ hline).2 rfl

theorem Style.outside_indentation : Outside (¬ IsBrace ·) (style.indentation level) :=
  outside_gap Style.gap_indentation

theorem Style.newline_not_mem_indentation : '\n' ∉ style.indentation level := by
  intro h
  obtain ⟨u, hu, h⟩ := List.mem_flatten.1 h
  rw [List.eq_of_mem_replicate hu] at h
  exact Style.newline_not_mem_indent h

end

namespace TypeExpr

variable {style : Style} {base n : Nat} {s : List Char} {t : TypeExpr} {p : Property}
  {ps : List Property}

theorem outside_printKey : Outside (¬ IsBrace ·) (printKey style key) := by
  rw [printKey]
  split
  · next h => exact outside_identifier h
  · exact outside_literal (Literal.literalText_encode Style.isQuote_preferredQuote)

theorem newline_not_mem_printKey : '\n' ∉ printKey style key := by
  rw [printKey]
  split
  · next h => exact newline_not_mem_identifier h
  · exact newline_not_mem_encode

theorem exists_printKey (style : Style) (key : List Char) :
    ∃ c r, printKey style key = c :: r ∧ (Text.isIdentStart c ∨ isQuote c) := by
  rw [printKey]
  split
  · next h =>
    obtain ⟨c, cs, rfl, hc⟩ := Parser.isIdentStart_head h
    exact ⟨c, cs, rfl, .inl hc⟩
  · exact ⟨_, _, rfl, .inr (Literal.isQuote_quoteFor Style.isQuote_preferredQuote)⟩

theorem indented_parenthesizeIf (h : Indented style base n s n) :
    Indented style base n (parenthesizeIf c s) n := by
  have hopen : Indented style base n ['('] n :=
    indented_of_forall (by simp [isQuote, IsBrace])
  have hclose : Indented style base n [')'] n :=
    indented_of_forall (by simp [isQuote, IsBrace])
  rw [parenthesizeIf]
  split
  · exact (hopen.append h).append hclose
  · exact h

theorem indented_intercalate {us : List (List Char)} (hs : Indented style base n s n)
    (hus : ∀ u ∈ us, Indented style base n u n) : Indented style base n (s.intercalate us) n := by
  match us, hus with
  | [], _ => exact indented_of_not_mem .nil (by simp [List.intercalate])
  | [u], hus => simpa [List.intercalate] using hus u (by simp)
  | u :: v :: us, hus =>
    obtain ⟨hu, hus⟩ := List.forall_mem_cons.1 hus
    rw [List.intercalate_cons_cons]
    exact (hu.append hs).append (indented_intercalate hs hus)

theorem indented_key {marked : Bool} : Indented style base n ('\n' :: (style.indentation (base + n) ++
    (printKey style key ++ ((if marked then ['?'] else []) ++ [':', ' '])))) n := by
  have hafter : Outside (¬ IsBrace ·) ((if marked then ['?'] else []) ++ [':', ' ']) := by
    cases marked <;> exact outside_of_forall (by simp [isQuote, IsBrace])
  refine indented_line (nested_of_outside ?_) ?_ ?_
  · exact Style.outside_indentation.append (outside_printKey.append hafter)
  · cases marked <;> simp [Style.newline_not_mem_indentation, newline_not_mem_printKey]
  · obtain ⟨c, r, hkey, hc⟩ := exists_printKey style key
    rw [hkey]
    exact .key hc

theorem indented_comma {present : Bool} :
    Indented style base n (if present then [','] else []) n := by
  cases present <;> exact indented_of_forall (by simp [isQuote, IsBrace])

theorem indented_properties
    (h : ∀ p ∈ ps, Indented style base n (p.value.print style (base + n)) n) :
    Indented style base n (printProperties style (base + n) ps) n := by
  induction ps with
  | nil => exact indented_of_not_mem .nil (by simp [printProperties])
  | cons p ps ih =>
    obtain ⟨hp, hps⟩ := List.forall_mem_cons.1 h
    have htext : printProperties style (base + n) (p :: ps) =
        '\n' :: (style.indentation (base + n) ++ (printKey style p.key.toList ++
          ((if p.optional then ['?'] else []) ++ [':', ' ']))) ++ p.value.print style (base + n) ++
        (if !ps.isEmpty || style.trailingCommaInObjects then [','] else []) ++
          printProperties style (base + n) ps := by
      simp [printProperties_cons, printProperty]
    rw [htext]
    exact ((indented_key.append hp).append indented_comma).append (ih hps)

theorem indented_closing : Indented style base (n + 1)
    ('\n' :: (style.indentation (base + n) ++ closing exact)) n := by
  refine indented_line ((nested_of_outside Style.outside_indentation).append nested_closing) ?_ ?_
  · cases exact <;> simp [Style.newline_not_mem_indentation, closing]
  · have hline : LineStart style base (n + 1)
        (style.indentation (base + (n + 1 - 1)) ++ (closing exact ++ [])) := .closing (Nat.succ_pos n)
    simpa using hline

theorem indented_opening : Indented style base n (opening exact) (n + 1) :=
  indented_of_not_mem nested_opening (by cases exact <;> simp [opening])

theorem indented_print (ht : t.Printable) :
    Indented style base n (t.print style (base + n)) n := by
  -- inside of an object one more is open
  induction ht generalizing n with
  | named h =>
    rw [print]
    exact indented_of_outside (outside_dottedName h) (newline_not_mem_dottedName h)
  | literal =>
    rw [print]
    exact indented_of_outside
      (outside_literal (Literal.literalText_encode Style.isQuote_preferredQuote))
      newline_not_mem_encode
  | @maybe t _ ih =>
    have hmark : Indented style base n ['?'] n :=
      indented_of_forall (by simp [isQuote, IsBrace])
    rw [print]
    exact hmark.append (indented_parenthesizeIf ih)
  | @array t _ ih =>
    have hbrackets : Indented style base n ['[', ']'] n :=
      indented_of_forall (by simp [isQuote, IsBrace])
    rw [print]
    exact (indented_parenthesizeIf ih).append hbrackets
  | @union ms _ _ ih =>
    have hbar : Indented style base n " | ".toList n :=
      indented_of_forall (by simp [isQuote, IsBrace])
    rw [print, printMembers_eq]
    have hms : ∀ u ∈ ms.map (printMember style (base + n)), Indented style base n u n := by
      intro u hu
      obtain ⟨m, hm, rfl⟩ := List.mem_map.1 hu
      exact indented_parenthesizeIf (ih m hm)
    exact indented_intercalate hbar hms
  | @object ps exact _ ih =>
    cases ps with
    | nil =>
      rw [print]
      refine indented_of_not_mem (nested_opening.append nested_closing) ?_
      cases exact <;> simp [opening, closing]
    | cons p ps =>
      have hps : ∀ q ∈ p :: ps, Indented style base (n + 1)
          (q.value.print style (base + (n + 1))) (n + 1) := fun q hq => ih q hq
      have hopen : Indented style base n (opening exact) (n + 1) := indented_opening
      have hclose : Indented style base (n + 1)
          ('\n' :: (style.indentation (base + n) ++ closing exact)) n := indented_closing
      have hobject := (hopen.append (indented_properties hps)).append hclose
      rw [← Nat.add_assoc] at hobject
      rw [print]
      simpa using hobject

end TypeExpr

/-! ## Declarations -/

namespace Declaration

variable {style : Style} {d : Declaration}

/-- The type is a union that does not fit on the line, and takes a line for each member. -/
def isBroken (style : Style) (d : Declaration) : Bool :=
  d.type.isUnion && !d.fits style (d.type.print style 0)

theorem outside_head (h : isIdentifier d.name.toList) : Outside (¬ IsBrace ·) d.head := by
  obtain ⟨comments, ⟨declared, exported⟩, name, t⟩ := d
  have hname : Outside (¬ IsBrace ·) name.toList := outside_identifier h
  have hends : Outside (¬ IsBrace ·) "type ".toList ∧ Outside (¬ IsBrace ·) " =".toList := by
    constructor <;> exact outside_of_forall (by simp [isQuote, IsBrace])
  have hmodifier : Outside (¬ IsBrace ·) (Modifier.print ⟨declared, exported⟩) := by
    cases declared <;> cases exported <;>
      exact outside_of_forall (by simp [Modifier.print, isQuote, IsBrace])
  exact ((hmodifier.append hends.1).append hname).append hends.2

theorem outside_terminator : Outside (¬ IsBrace ·) style.terminator := by
  rw [Style.terminator]
  split <;> exact outside_of_forall (by simp [isQuote, IsBrace])

theorem indented_brokenUnion {ms : List TypeExpr} (h : ∀ m ∈ ms, m.Printable) :
    Indented style 1 0 (brokenUnion style ms) 0 := by
  rw [brokenUnion_eq_flatMap]
  induction ms with
  | nil => exact indented_of_not_mem .nil (by simp)
  | cons m ms ih =>
    obtain ⟨hm, hms⟩ := List.forall_mem_cons.1 h
    have hindent : style.indentation (1 + 0) = style.indent := by simp [Style.indentation]
    have hbar : Indented style 1 0 ('\n' :: (style.indentation (1 + 0) ++ ['|', ' '])) 0 := by
      refine indented_line (nested_of_outside ?_) ?_ .member
      · exact Style.outside_indentation.append (outside_of_forall (by simp [isQuote, IsBrace]))
      · simp [Style.newline_not_mem_indentation]
    have hmember : Indented style 1 0 (m.printMember style (1 + 0)) 0 :=
      TypeExpr.indented_parenthesizeIf (TypeExpr.indented_print hm)
    have hline := (hbar.append hmember).append (ih hms)
    rw [hindent] at hline
    simpa using hline

theorem indented_body (ht : d.type.Printable) :
    Indented style (d.isBroken style).toNat 0 (d.printBody style) 0 := by
  -- on one line the type is not indented at all
  have hflat : Indented style 0 0 (' ' :: d.type.print style 0) 0 := by
    have hspace : Indented style 0 0 [' '] 0 :=
      indented_of_forall (by simp [isQuote, IsBrace])
    have htype : Indented style 0 0 (d.type.print style (0 + 0)) 0 := TypeExpr.indented_print ht
    exact hspace.append htype
  rw [isBroken]
  cases hunion : d.type with
  | union ms =>
    rw [← hunion, printBody_union hunion]
    cases hfits : d.fits style (d.type.print style 0) with
    | true => simpa [hunion, TypeExpr.isUnion] using hflat
    | false =>
      rw [hunion] at ht
      cases ht with
      | union _ hms => simpa [hunion, TypeExpr.isUnion] using indented_brokenUnion hms
  | _ =>
    rw [printBody_of_not_isUnion (by rw [hunion]; rfl)]
    simpa [hunion, TypeExpr.isUnion] using hflat

theorem indented_print (h : isIdentifier d.name.toList) (ht : d.type.Printable) :
    Indented style (d.isBroken style).toNat 0 (d.bare.print style) 0 := by
  have hhead : Indented style (d.isBroken style).toNat 0 d.head 0 :=
    indented_of_outside (outside_head h) (newline_not_mem_head h)
  have hend : Indented style (d.isBroken style).toNat 0 style.terminator 0 :=
    indented_of_outside outside_terminator Style.newline_not_mem_terminator
  rw [print_bare]
  exact (hhead.append (indented_body ht)).append hend

end Declaration

end ModelTypes
