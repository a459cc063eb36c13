import Mathlib.Data.List.Chain
import ModelTypes.Proofs.Declaration.Indentation

/-!
# The layout of canonical forms

A printed file consists of whole lines. Outside of block comments no line has blanks at its end and
there are never two blank lines in a row; the file neither begins nor ends with one.
-/

namespace ModelTypes

open Grammar
open Literal (isQuote)
open Text (isBlank isIdentRest isIdentifier)

/-! ## Ends of lines -/

def EndsTight (s : List Char) : Prop :=
  ∃ r c, s = r ++ [c] ∧ isBlank c = false

/-- No line of a text is empty or has blanks at its end. -/
structure Tight (s : List Char) : Prop where
  ends : EndsTight s
  lines : ∀ u v, s = u ++ '\n' :: v → EndsTight u

section

variable {s s' g u v : List Char}

theorem EndsTight.append (h : EndsTight v) : EndsTight (u ++ v) := by
  obtain ⟨r, c, rfl, hc⟩ := h
  exact ⟨u ++ r, c, (List.append_assoc _ _ _).symm, hc⟩

theorem tight_of_ends (h : '\n' ∉ s) (hs : EndsTight s) : Tight s := by
  refine ⟨hs, ?_⟩
  rintro u v rfl
  simp at h

theorem tight_concat (h : '\n' ∉ s) (hc : isBlank c = false) : Tight (s ++ [c]) := by
  refine tight_of_ends ?_ ⟨s, c, rfl, hc⟩
  have hne : '\n' ≠ c := by rintro rfl; cases hc
  simp [h, hne]

theorem tight_singleton (hc : isBlank c = false) : Tight [c] :=
  tight_concat (List.not_mem_nil) hc

theorem Tight.append (h : Tight s) (h' : Tight s') : Tight (s ++ s') := by
  refine ⟨h'.ends.append, fun u v huv => ?_⟩
  rcases List.append_eq_append_iff.1 huv with ⟨a, rfl, ha⟩ | ⟨a, rfl, ha⟩
  · exact (h'.lines a v ha).append
  · cases a with
    | nil =>
      -- a line feed at the front of the second text would come after nothing
      obtain ⟨r, c, hr, -⟩ := h'.lines [] v ha.symm
      simp at hr
    | cons c a =>
      obtain ⟨rfl, -⟩ := List.cons.inj ha
      exact h.lines u a rfl

theorem Tight.after (hg : '\n' ∉ g) (h : Tight s) : Tight (g ++ s) := by
  refine ⟨h.ends.append, fun u v huv => ?_⟩
  rcases List.append_eq_append_iff.1 huv with ⟨a, rfl, ha⟩ | ⟨a, rfl, ha⟩
  · exact (h.lines a v ha).append
  · cases a with
    | nil =>
      obtain ⟨r, c, hr, -⟩ := h.lines [] v ha.symm
      simp at hr
    | cons c a =>
      obtain ⟨rfl, -⟩ := List.cons.inj ha
      simp at hg

theorem Tight.line (h : Tight s) (h' : Tight s') : Tight (s ++ '\n' :: s') := by
  have hends : EndsTight (s ++ ('\n' :: s')) := (h'.ends.append (u := ['\n'])).append
  refine ⟨hends, fun u v huv => ?_⟩
  rcases List.append_eq_append_iff.1 huv with ⟨a, rfl, ha⟩ | ⟨a, rfl, ha⟩
  · cases a with
    | nil => simpa using h.ends
    | cons c a =>
      obtain ⟨-, ha⟩ := List.cons.inj ha
      exact ((h'.lines a v ha).append (u := [c])).append
  · cases a with
    | nil => simpa using h.ends
    | cons c a =>
      obtain ⟨rfl, -⟩ := List.cons.inj ha
      exact h.lines u a rfl

theorem Tight.flatMap {f : α → List Char} {l : List α} (hs : Tight s)
    (h : ∀ a ∈ l, ∀ s, Tight s → Tight (s ++ f a)) : Tight (s ++ l.flatMap f) := by
  induction l generalizing s with
  | nil => simpa using hs
  | cons a l ih =>
    obtain ⟨ha, hl⟩ := List.forall_mem_cons.1 h
    rw [List.flatMap_cons, ← List.append_assoc]
    exact ih (ha s hs) hl

theorem isBlank_of_isIdentRest (h : isIdentRest c) : isBlank c = false := by
  simp only [isIdentRest, Bool.or_eq_true, beq_iff_eq] at h
  rcases h with (h | rfl) | rfl
  · exact Text.isBlank_of_isAlphanum h
  · rfl
  · rfl

theorem isBlank_of_isQuote (h : isQuote c) : isBlank c = false := by
  rcases Literal.eq_of_isQuote h with rfl | rfl <;> rfl

theorem tight_identifier (h : isIdentifier u) : Tight u := by
  refine tight_of_ends (newline_not_mem_identifier h) ?_
  have hne : u ≠ [] := by rintro rfl; cases h
  refine ⟨u.dropLast, u.getLast hne, (List.dropLast_append_getLast hne).symm, ?_⟩
  exact isBlank_of_isIdentRest (isIdentRest_of_isIdentifier h _ (List.getLast_mem hne))

theorem tight_dottedName (h : DottedName u) : Tight u := by
  induction h with
  | identifier hu => exact tight_identifier hu
  | dotted hu _ ih => exact (tight_identifier hu).append ((tight_singleton rfl).append ih)

theorem tight_encode {style : Style} : Tight (Literal.encode style.preferredQuote v) := by
  have hquote : isQuote (Literal.quoteFor style.preferredQuote v) :=
    Literal.isQuote_quoteFor Style.isQuote_preferredQuote
  have hline : '\n' ∉ Literal.encode style.preferredQuote v := newline_not_mem_encode
  exact tight_of_ends hline ⟨_, _, rfl, isBlank_of_isQuote hquote⟩

end

namespace TypeExpr

variable {style : Style} {level : Nat} {s : List Char} {t : TypeExpr} {ps : List Property}

theorem tight_parenthesizeIf (h : Tight s) : Tight (parenthesizeIf c s) := by
  rw [parenthesizeIf]
  split
  · exact ((tight_singleton rfl).append h).append (tight_singleton rfl)
  · exact h

theorem tight_printKey : Tight (printKey style key) := by
  rw [printKey]
  split
  · next h => exact tight_identifier h
  · exact tight_encode

theorem tight_opening : Tight (opening exact) := by
  cases exact
  · exact tight_singleton rfl
  · exact (tight_singleton rfl).append (tight_singleton rfl)

theorem tight_closing : Tight (closing exact) := by
  cases exact
  · exact tight_singleton rfl
  · exact (tight_singleton rfl).append (tight_singleton rfl)

theorem tight_printProperty {p : Property} (hp : Tight (p.value.print style level)) :
    Tight (printProperty style level p) := by
  have hkey : Tight (printKey style p.key.toList) := tight_printKey
  have hmark : Tight (printKey style p.key.toList ++ if p.optional then ['?'] else []) := by
    split
    · exact hkey.append (tight_singleton rfl)
    · simpa using hkey
  -- the blank after the colon stands before the value
  have hvalue : Tight ([' '] ++ p.value.print style level) := hp.after (by simp)
  have htext : printProperty style level p =
      (printKey style p.key.toList ++ if p.optional then ['?'] else []) ++
        ([':'] ++ ([' '] ++ p.value.print style level)) := by
    simp [printProperty]
  rw [htext]
  exact hmark.append ((tight_singleton rfl).append hvalue)

theorem tight_properties (hs : Tight s) (h : ∀ p ∈ ps, Tight (p.value.print style level)) :
    Tight (s ++ printProperties style level ps) := by
  induction ps generalizing s with
  | nil => simpa [printProperties] using hs
  | cons p ps ih =>
    obtain ⟨hp, hps⟩ := List.forall_mem_cons.1 h
    have hproperty : Tight (style.indentation level ++ printProperty style level p) :=
      (tight_printProperty hp).after Style.newline_not_mem_indentation
    have hcomma : Tight (s ++ '\n' :: (style.indentation level ++ printProperty style level p) ++
        if !ps.isEmpty || style.trailingCommaInObjects then [','] else []) := by
      split
      · exact (hs.line hproperty).append (tight_singleton rfl)
      · simpa using hs.line hproperty
    rw [printProperties_cons]
    simpa only [List.append_assoc, List.cons_append] using ih hcomma hps

theorem tight_print (ht : t.Printable) : Tight (t.print style level) := by
  -- the level is general, since properties are printed one level deeper
  induction ht generalizing level with
  | named h => exact tight_dottedName h
  | literal => exact tight_encode
  | maybe _ ih =>
    rw [print]
    exact (tight_singleton rfl).append (tight_parenthesizeIf ih)
  | array _ ih =>
    have hbrackets : Tight (['['] ++ [']']) := (tight_singleton rfl).append (tight_singleton rfl)
    rw [print]
    exact (tight_parenthesizeIf ih).append hbrackets
  | @union ms hne _ ih =>
    obtain ⟨m, ms, rfl⟩ := List.exists_cons_of_ne_nil hne
    obtain ⟨hm, hms⟩ := List.forall_mem_cons.1 ih
    rw [print, printMembers_eq, List.map_cons, intercalate_cons, List.flatMap_map]
    refine (tight_parenthesizeIf hm).flatMap fun m' hm' s hs => ?_
    have hbar : Tight ([' '] ++ ['|']) := (tight_singleton rfl).after (by simp)
    have hmember : Tight ([' '] ++ m'.printMember style level) :=
      (tight_parenthesizeIf (hms m' hm')).after (by simp)
    exact hs.append (hbar.append hmember)
  | @object ps exact _ ih =>
    cases ps with
    | nil => exact tight_opening.append tight_closing
    | cons p ps =>
      have hps : ∀ q ∈ p :: ps, Tight (q.value.print style (level + 1)) := fun q hq => ih q hq
      have hopen : Tight (opening exact ++ printProperties style (level + 1) (p :: ps)) :=
        tight_properties tight_opening hps
      have hclose : Tight (style.indentation level ++ closing exact) :=
        tight_closing.after Style.newline_not_mem_indentation
      rw [print]
      simpa using hopen.line hclose

end TypeExpr

namespace Declaration

variable {style : Style} {d : Declaration} {s : List Char}

theorem tight_head (h : isIdentifier d.name.toList) : Tight d.head := by
  refine tight_of_ends (newline_not_mem_head h) ?_
  exact ⟨d.modifier.print ++ "type ".toList ++ d.name.toList ++ [' '], '=', by simp [head], rfl⟩

theorem tight_body (hs : Tight s) (ht : d.type.Printable) : Tight (s ++ d.printBody style) := by
  -- on one line the end of the type is the end of the line
  have hflat : Tight (s ++ ' ' :: d.type.print style 0) := by
    have htype : Tight ([' '] ++ d.type.print style 0) := (TypeExpr.tight_print ht).after (by simp)
    exact hs.append htype
  cases hunion : d.type with
  | union ms =>
    rw [printBody_union hunion]
    split
    · exact hflat
    · rw [hunion] at ht
      cases ht with
      | union _ hms =>
        rw [brokenUnion_eq_flatMap]
        refine hs.flatMap fun m hm s hs => ?_
        have hindent : '\n' ∉ style.indent ++ ['|', ' '] := by
          simp [Style.newline_not_mem_indent]
        exact hs.line ((TypeExpr.tight_parenthesizeIf (TypeExpr.tight_print (hms m hm))).after hindent)
  | _ =>
    rw [printBody_of_not_isUnion (by rw [hunion]; rfl)]
    exact hflat

theorem tight_print (h : isIdentifier d.name.toList) (ht : d.type.Printable) :
    Tight (d.bare.print style) := by
  have hbody : Tight (d.head ++ d.printBody style) := tight_body (tight_head h) ht
  rw [print_bare, Style.terminator]
  split
  · exact hbody.append (tight_singleton rfl)
  · simpa using hbody

end Declaration

/-! ## Lines of a file -/

/-- A line of a file, or a block comment, which may span several. -/
inductive Line where
  | plain (text : List Char)
  | block (text : String)

namespace Line

def print : Line → List Char
  | plain text => text
  | block text => (Comment.block text).print

def isBlank : Line → Bool
  | plain text => text.all Text.isBlank
  | block _ => false

/-- A whole line without blanks at its end. Nothing is asked of a block comment. -/
def Clean : Line → Prop
  | plain text => '\n' ∉ text ∧ (text = [] ∨ EndsTight text)
  | block _ => True

def block? : Line → Option String
  | plain _ => none
  | block text => some text

theorem isBlank_of_endsTight {text : List Char} (h : EndsTight text) :
    (plain text).isBlank = false := by
  obtain ⟨r, c, rfl, hc⟩ := h
  simp [isBlank, hc]

theorem endsTight_print {l : Line} (h : l.Clean) (hl : l.isBlank = false) : EndsTight l.print := by
  cases l with
  | plain text =>
    rcases h.2 with rfl | hends
    · cases hl
    · exact hends
  | block text =>
    exact ⟨"/*".toList ++ text.toList ++ ['*'], '/', by simp [print, Comment.print], rfl⟩

end Line

/-- Lines as they stand in a canonical form: blank ones stand apart and between others. -/
structure TidyLines (ls : List Line) : Prop where
  clean : ∀ l ∈ ls, l.Clean
  apart : ls.IsChain fun l l' => l.isBlank = false ∨ l'.isBlank = false
  first : ∀ l ∈ ls.head?, l.isBlank = false
  last : ∀ l ∈ ls.getLast?, l.isBlank = false

/-- A text of tidy lines with these block comments among them. -/
def Laid (s : List Char) (blocks : List String) : Prop :=
  ∃ ls : List Line, s = ls.flatMap (·.print ++ ['\n']) ∧ ls.filterMap Line.block? = blocks ∧
    TidyLines ls

section

variable {s s' u v : List Char} {blocks blocks' : List String} {ls ls' : List Line}

theorem tidyLines_of_forall (h : ∀ l ∈ ls, l.Clean ∧ l.isBlank = false) : TidyLines ls where
  clean l hl := (h l hl).1
  apart := List.isChain_iff_forall_rel_of_append_cons_cons.2 fun l l' u v hls =>
    .inl (h l (by simp [hls])).2
  first l hl := (h l (List.mem_of_mem_head? hl)).2
  last l hl := (h l (List.mem_of_mem_getLast? hl)).2

theorem TidyLines.append (h : TidyLines ls) (h' : TidyLines ls') : TidyLines (ls ++ ls') where
  clean := List.forall_mem_append.2 ⟨h.clean, h'.clean⟩
  apart := h.apart.append h'.apart fun l hl _ _ => .inl (h.last l hl)
  first l hl := by
    cases ls with
    | nil => exact h'.first l hl
    | cons l' ls => exact h.first l hl
  last l hl := by
    rw [List.getLast?_append, Option.mem_def, Option.or_eq_some_iff] at hl
    rcases hl with hl | ⟨-, hl⟩
    · exact h'.last l hl
    · exact h.last l hl

theorem TidyLines.blank (h : TidyLines ls) (hls : ls ≠ []) (h' : TidyLines ls') (hls' : ls' ≠ []) :
    TidyLines (ls ++ .plain [] :: ls') where
  clean := List.forall_mem_append.2
    ⟨h.clean, List.forall_mem_cons.2 ⟨⟨List.not_mem_nil, .inl rfl⟩, h'.clean⟩⟩
  apart := h.apart.append (h'.apart.cons fun l hl => .inr (h'.first l hl))
    fun l hl _ _ => .inl (h.last l hl)
  first l hl := by
    obtain ⟨l', ls, rfl⟩ := List.exists_cons_of_ne_nil hls
    exact h.first l hl
  last l hl := by
    obtain ⟨l', ls', rfl⟩ := List.exists_cons_of_ne_nil hls'
    exact h'.last l (by simpa [List.getLast?_append, List.getLast?_cons] using hl)

theorem laid_nil : Laid [] [] :=
  ⟨[], rfl, rfl, tidyLines_of_forall (List.forall_mem_nil _)⟩

theorem Laid.append (h : Laid s blocks) (h' : Laid s' blocks') :
    Laid (s ++ s') (blocks ++ blocks') := by
  obtain ⟨ls, rfl, rfl, hls⟩ := h
  obtain ⟨ls', rfl, rfl, hls'⟩ := h'
  exact ⟨ls ++ ls', List.flatMap_append.symm, List.filterMap_append, hls.append hls'⟩

theorem Laid.blank (h : Laid s blocks) (hs : s ≠ []) (h' : Laid s' blocks') (hs' : s' ≠ []) :
    Laid (s ++ '\n' :: s') (blocks ++ blocks') := by
  obtain ⟨ls, rfl, rfl, hls⟩ := h
  obtain ⟨ls', rfl, rfl, hls'⟩ := h'
  refine ⟨ls ++ .plain [] :: ls', ?_, ?_, hls.blank ?_ hls' ?_⟩
  · simp [Line.print]
  · simp [List.filterMap_cons, Line.block?]
  · rintro rfl
    exact hs rfl
  · rintro rfl
    exact hs' rfl

theorem Laid.ends (h : Laid s blocks) : s = [] ∨ ∃ u c, s = u ++ [c, '\n'] ∧ c ≠ '\n' := by
  obtain ⟨ls, rfl, -, hls⟩ := h
  rcases List.eq_nil_or_concat' ls with rfl | ⟨ls, l, rfl⟩
  · exact .inl rfl
  · have hclean : l.Clean := hls.clean l (by simp)
    have hlast : l.isBlank = false := hls.last l (by simp)
    obtain ⟨r, c, hprint, hc⟩ := Line.endsTight_print hclean hlast
    refine .inr ⟨ls.flatMap (·.print ++ ['\n']) ++ r, c, by simp [hprint], ?_⟩
    rintro rfl
    cases hc

theorem laid_singleton {l : Line} (h : l.Clean) (hl : l.isBlank = false) :
    Laid (l.print ++ ['\n']) l.block?.toList := by
  refine ⟨[l], by simp, ?_, tidyLines_of_forall (by simp [h, hl])⟩
  cases l <;> rfl

theorem EndsTight.of_newline (h : EndsTight (u ++ '\n' :: v)) : EndsTight v := by
  obtain ⟨r, c, hr, hc⟩ := h
  rcases List.eq_nil_or_concat' v with rfl | ⟨v, d, rfl⟩
  · obtain ⟨-, hc'⟩ := List.append_inj' hr rfl
    cases hc'
    cases hc
  · refine ⟨v, d, rfl, ?_⟩
    rw [← List.cons_append, ← List.append_assoc] at hr
    obtain ⟨-, hc'⟩ := List.append_inj' hr rfl
    cases hc'
    exact hc

theorem laid_of_tight (h : Tight s) : Laid (s ++ ['\n']) [] := by
  -- the induction is on the length, since a whole line is taken off
  induction hn : s.length using Nat.strong_induction_on generalizing s with
  | h n ih =>
    by_cases hline : '\n' ∈ s
    · obtain ⟨u, v, rfl, hu⟩ := List.eq_append_cons_of_mem hline
      have hends : EndsTight u := h.lines u v rfl
      have hfirst : Laid (u ++ ['\n']) [] :=
        laid_singleton (l := .plain u) ⟨hu, .inr hends⟩ (Line.isBlank_of_endsTight hends)
      have hv : Tight v := by
        refine ⟨h.ends.of_newline, ?_⟩
        rintro w x rfl
        exact (h.lines (u ++ '\n' :: w) x (by simp)).of_newline
      have hrest : Laid (v ++ ['\n']) [] := by
        refine ih v.length ?_ hv rfl
        rw [← hn, List.length_append, List.length_cons]
        omega
      simpa using hfirst.append hrest
    · exact laid_singleton (l := .plain s) ⟨hline, .inr h.ends⟩ (Line.isBlank_of_endsTight h.ends)

end

/-! ## Files -/

def Comment.block? : Comment → Option String
  | line _ => none
  | block text => some text

theorem endsTight_line {text : String} (h : (Comment.line text).Normal) :
    EndsTight (Comment.line text).print := by
  have htrim : Text.trimEnd text.toList = text.toList := by
    have h' := congrArg String.toList (Comment.line.inj h.2)
    rwa [String.toList_ofList] at h'
  by_cases hnil : text.toList = []
  · exact ⟨['/'], '/', by simp [Comment.print, hnil], rfl⟩
  · have hlast : ¬ isBlank (text.toList.getLast hnil) := by
      have hne : Text.trimEnd text.toList ≠ [] := by rwa [htrim]
      have hlast := List.rdropWhile_last_not isBlank text.toList hne
      simpa only [show List.rdropWhile isBlank text.toList = text.toList from htrim] using hlast
    refine ⟨"//".toList ++ text.toList.dropLast, text.toList.getLast hnil, ?_, by simpa using hlast⟩
    rw [List.append_assoc, List.dropLast_append_getLast hnil]
    rfl

theorem laid_comment {c : Comment} (h : c.Normal) :
    Laid (c.print ++ ['\n']) c.block?.toList := by
  cases c with
  | line text =>
    have hline : '\n' ∉ (Comment.line text).print := by
      have htext : '\n' ∉ text.toList := h.1
      simpa [Comment.print] using htext
    have hends := endsTight_line h
    exact laid_singleton (l := .plain _) ⟨hline, .inr hends⟩ (Line.isBlank_of_endsTight hends)
  | block text => exact laid_singleton (l := .block text) trivial rfl

theorem laid_comments {cs : List Comment} (h : ∀ c ∈ cs, c.Normal) :
    Laid (Comment.printLines cs) (cs.filterMap Comment.block?) := by
  induction cs with
  | nil => exact laid_nil
  | cons c cs ih =>
    obtain ⟨hc, hcs⟩ := List.forall_mem_cons.1 h
    have hlaid := (laid_comment hc).append (ih hcs)
    rw [List.filterMap_cons]
    cases hblock : c.block? <;> simpa [Comment.printLines, hblock] using hlaid

theorem printLines_eq_nil_iff {cs : List Comment} : Comment.printLines cs = [] ↔ cs = [] := by
  cases cs <;> simp [Comment.printLines]

namespace Declaration

variable {style : Style} {d : Declaration}

theorem laid_print
    (h : isIdentifier d.name.toList ∧ d.type.Normal ∧ ∀ c ∈ d.comments, c.Normal) :
    Laid (d.print style ++ ['\n']) (d.comments.filterMap Comment.block?) := by
  obtain ⟨hname, htype, hcomments⟩ := h
  have hbare : Laid (d.bare.print style ++ ['\n']) [] :=
    laid_of_tight (tight_print hname htype.printable)
  rw [print_eq, List.append_assoc]
  simpa using (laid_comments hcomments).append hbare

end Declaration

namespace SourceFile

variable {style : Style} {file : SourceFile} {ds : List Declaration} {s : List Char}
  {blocks : List String}

def comments (file : SourceFile) : List Comment :=
  file.header ++ file.declarations.flatMap (·.comments) ++ file.trailing

theorem laid_printAfter (style : Style) (multiline : Bool) (hs : Laid s blocks) (hne : s ≠ [])
    (h : ∀ d ∈ ds, isIdentifier d.name.toList ∧ d.type.Normal ∧ ∀ c ∈ d.comments, c.Normal) :
    Laid (s ++ printAfter style multiline ds)
      (blocks ++ (ds.flatMap (·.comments)).filterMap Comment.block?) := by
  -- the text before the declarations is general, since each of them is added to it
  induction ds generalizing s blocks multiline with
  | nil => simpa [printAfter] using hs
  | cons d ds ih =>
    obtain ⟨hd, hds⟩ := List.forall_mem_cons.1 h
    have hprint : Laid (d.print style ++ ['\n']) (d.comments.filterMap Comment.block?) :=
      Declaration.laid_print hd
    have hfirst : Laid (s ++ ((if (d.print style).contains '\n' || multiline then ['\n'] else []) ++
        (d.print style ++ ['\n']))) (blocks ++ d.comments.filterMap Comment.block?) := by
      split
      · exact hs.blank hne hprint (by simp)
      · exact hs.append hprint
    have hrest := ih ((d.print style).contains '\n') hfirst (by simp [hne]) hds
    simpa [printAfter] using hrest

theorem laid_printMain (h : file.Normal) : Laid (file.printMain style)
    ((file.header ++ file.declarations.flatMap (·.comments)).filterMap Comment.block?) := by
  have hheader : Laid (Comment.printLines file.header) (file.header.filterMap Comment.block?) :=
    laid_comments h.header
  have hdeclarations := h.declarations
  rw [printMain]
  cases hds : file.declarations with
  | nil => simpa using hheader
  | cons d ds =>
    rw [hds] at hdeclarations
    obtain ⟨hd, hds⟩ := List.forall_mem_cons.1 hdeclarations
    have hprint : Laid (d.print style ++ ['\n']) (d.comments.filterMap Comment.block?) :=
      Declaration.laid_print hd
    -- a header is set apart by a blank line, which an empty one does without
    have hfirst : Laid (Comment.printLines file.header ++
        ((if file.header.isEmpty then [] else ['\n']) ++ (d.print style ++ ['\n'])))
        (file.header.filterMap Comment.block? ++ d.comments.filterMap Comment.block?) := by
      split
      · exact hheader.append hprint
      · next hempty =>
        have hne : Comment.printLines file.header ≠ [] := by
          rwa [Ne, printLines_eq_nil_iff, ← List.isEmpty_iff]
        exact hheader.blank hne hprint (by simp)
    have hrest := laid_printAfter style ((d.print style).contains '\n') hfirst (by simp) hds
    simpa using hrest

theorem laid_print (h : file.Normal) :
    Laid (file.print style) (file.comments.filterMap Comment.block?) := by
  have hmain : Laid (file.printMain style) _ := laid_printMain h
  have htrailing : Laid (Comment.printLines file.trailing)
      (file.trailing.filterMap Comment.block?) := laid_comments h.trailing
  rw [print, comments, List.filterMap_append]
  split
  · next hempty => simpa [List.isEmpty_iff.1 hempty] using hmain
  · next hempty =>
    have hne : Comment.printLines file.trailing ≠ [] := by
      rwa [Ne, printLines_eq_nil_iff, ← List.isEmpty_iff]
    split
    · next hnil => simpa using hmain.append htrailing
    · next hnil =>
      have hnil : file.printMain style ≠ [] := by rwa [Ne, ← List.isEmpty_iff]
      simpa using hmain.blank hnil htrailing hne

theorem exists_print_eq (style : Style) {d : Declaration} (h : d ∈ file.declarations) :
    ∃ front back, file.print style = front ++ d.bare.print style ++ '\n' :: back := by
  obtain ⟨ds, ds', hds⟩ := List.append_of_mem h
  obtain ⟨header, declarations, trailing⟩ := file
  obtain rfl : declarations = ds ++ d :: ds' := hds
  obtain ⟨front, hfront⟩ := exists_printMain style header ds d
  obtain ⟨back, hback⟩ := exists_print_eq_printMain_append style ⟨header, ds ++ d :: ds', trailing⟩
  refine ⟨front ++ Comment.printLines d.comments,
    printAfter style ((d.print style).contains '\n') ds' ++ back, ?_⟩
  rw [hback, printMain_append, hfront, Declaration.print_eq]
  simp

/-- The layout of the canonical form. It is empty or ends in one line feed. It consists of lines and
of the block comments of the file; no line has blanks at its end, and blank lines stand apart and
between others. Each line inside of a declaration is indented by a level for every object that is
open in front of it, and by one more in a broken union. -/
theorem canonical_layout (h : parse source.toList = .ok file) (style : Style) :
    canonicalize style source = .ok (String.ofList (file.print style)) ∧
    (file.print style = [] ∨ ∃ u c, file.print style = u ++ [c, '\n'] ∧ c ≠ '\n') ∧
    (∃ ls : List Line, file.print style = ls.flatMap (·.print ++ ['\n']) ∧
      ls.filterMap Line.block? = file.comments.filterMap Comment.block? ∧ TidyLines ls) ∧
    ∀ d ∈ file.declarations,
      (∃ front back, file.print style = front ++ d.bare.print style ++ '\n' :: back) ∧
      ∀ u v, d.bare.print style = u ++ '\n' :: v → ∃ depth, (∀ n, Nested 0 u n ↔ n = depth) ∧
        LineStart style (d.isBroken style).toNat depth v := by
  have hnormal : file.Normal := normal_of_parse h
  have hlaid : Laid (file.print style) (file.comments.filterMap Comment.block?) :=
    laid_print hnormal
  refine ⟨canonicalize_of_parse h style, hlaid.ends, hlaid, fun d hd => ⟨exists_print_eq style hd, ?_⟩⟩
  intro u v huv
  obtain ⟨hname, htype, -⟩ := hnormal.declarations d hd
  obtain ⟨depth, hnested, hline⟩ :=
    (Declaration.indented_print hname htype.printable).lines u v huv
  refine ⟨depth, fun n => ⟨fun hn => hn.unique hnested, ?_⟩, hline⟩
  rintro rfl
  exact hnested

def nestedDeclaration : Declaration :=
  ⟨[], ⟨false, false⟩, "A", .union [.object false [⟨"b", false, .named "C"⟩], .named "D"]⟩

theorem parse_nestedDeclaration : parse "/* x\n\n*/\ntype A = \x7bb:C\x7d|D".toList =
    .ok ⟨[.block " x\n\n"], [nestedDeclaration], []⟩ := by
  with_unfolding_all rfl

theorem canonical_layout_sample :
    parse "/* x\n\n*/\ntype A = \x7bb:C\x7d|D".toList =
        .ok ⟨[.block " x\n\n"], [nestedDeclaration], []⟩ ∧
      (∃ ls : List Line,
        (⟨[.block " x\n\n"], [nestedDeclaration], []⟩ : SourceFile).print {} =
          ls.flatMap (·.print ++ ['\n']) ∧
        ls.filterMap Line.block? = [" x\n\n"] ∧ TidyLines ls) ∧
      nestedDeclaration.bare.print {} =
        "type A =\n  | \x7b".toList ++ '\n' :: "    b: C,\n  \x7d\n  | D;".toList ∧
      ∃ depth, (∀ n, Nested 0 "type A =\n  | \x7b".toList n ↔ n = depth) ∧
        LineStart {} 1 depth "    b: C,\n  \x7d\n  | D;".toList := by
  have h := canonical_layout parse_nestedDeclaration {}
  have hprint : nestedDeclaration.bare.print {} =
      "type A =\n  | \x7b".toList ++ '\n' :: "    b: C,\n  \x7d\n  | D;".toList := by
    with_unfolding_all rfl
  exact ⟨parse_nestedDeclaration, h.2.2.1, hprint,
    (h.2.2.2 nestedDeclaration (by simp)).2 _ _ hprint⟩

end SourceFile

end ModelTypes
