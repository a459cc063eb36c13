import ModelTypes.Proofs.Declaration.Types

/-!
# Closing braces

A type that begins with an opening brace has a closing one that is in no literal, so it does not end
before the first of these in the text.
-/

namespace ModelTypes.Grammar

open Literal (isQuote)
open Text (isIdentifier isIdentRest skipGap)

/-! ## Outside of literals -/

/-- A text of literals and of characters of a kind. -/
inductive Outside (p : Char → Prop) : List Char → Prop
  | nil : Outside p []
  | char : isQuote c = false → p c → Outside p u → Outside p (c :: u)
  | literal : LiteralText u v → Outside p w → Outside p (u ++ w)

variable {r s u v w : List Char}

theorem Outside.append (hu : Outside p u) (hv : Outside p v) : Outside p (u ++ v) := by
  induction hu with
  | nil => exact hv
  | char hquote hc _ ih => exact .char hquote hc ih
  | literal hu _ ih =>
    rw [List.append_assoc]
    exact .literal hu ih

theorem Outside.imp (hu : Outside p u) (h : ∀ c, p c → q c) : Outside q u := by
  induction hu with
  | nil => exact .nil
  | char hquote hc _ ih => exact .char hquote (h _ hc) ih
  | literal hu _ ih => exact .literal hu ih

theorem outside_literal (h : LiteralText u v) : Outside p u := by
  rw [← List.append_nil u]
  exact .literal h .nil

theorem outside_of_forall (h : ∀ c ∈ u, isQuote c = false ∧ p c) : Outside p u := by
  induction u with
  | nil => exact .nil
  | cons c cs ih =>
    obtain ⟨hc, hcs⟩ := List.forall_mem_cons.1 h
    exact .char hc.1 hc.2 (ih hcs)

theorem LiteralText.unique (hu : LiteralText u v) (hw : LiteralText w v') (h : u ++ r = w ++ s) :
    r = s := by
  have hread := (Parser.literal?_iff (r := r)).2 ⟨u, hu, rfl⟩
  rw [h, (Parser.literal?_iff (r := s)).2 ⟨w, hw, rfl⟩] at hread
  cases hread
  rfl

theorem LiteralText.ne_cons (hu : LiteralText u v) (hc : isQuote c = false) : u ++ r ≠ c :: s := by
  rintro h
  cases hu with
  | quoted hq _ =>
    cases h
    rw [hc] at hq
    cases hq

theorem Outside.of_cons (h : Outside p (c :: u)) (hc : isQuote c = false) : p c ∧ Outside p u := by
  generalize hs : c :: u = s at h
  cases h with
  | nil => cases hs
  | char _ hp hu =>
    cases hs
    exact ⟨hp, hu⟩
  | literal hu _ => exact absurd hs.symm (hu.ne_cons hc)

/-! ## Ends of lines -/

theorem body_ne_newline (hq : isQuote q) (h : LiteralBody q u v) : u ++ q :: r ≠ '\n' :: s := by
  intro heq
  cases h with
  | nil =>
    cases heq
    cases hq
  | plain _ _ hline _ =>
    cases heq
    exact hline rfl
  | escape _ _ => cases heq

/-- A literal ends before a comma at the end of a line: it may escape the comma, but then comes the
line feed. -/
theorem body_before_comma (hq : isQuote q) (h : LiteralBody q u v)
    (heq : u ++ q :: r = w ++ ',' :: '\n' :: s) :
    ∃ w', w = u ++ q :: w' ∧ r = w' ++ ',' :: '\n' :: s := by
  induction h generalizing w with
  | nil =>
    cases w with
    | nil =>
      cases heq
      cases hq
    | cons c cs =>
      cases heq
      exact ⟨cs, rfl, rfl⟩
  | @plain c u v _ _ _ hu ih =>
    cases w with
    | nil => exact absurd (List.cons.inj heq).2 (body_ne_newline hq hu)
    | cons d ds =>
      simp only [List.cons_append, List.cons.injEq] at heq
      obtain ⟨rfl, heq⟩ := heq
      obtain ⟨w', rfl, hr⟩ := ih heq
      exact ⟨w', rfl, hr⟩
  | @escape u c u' v hescape hu ih =>
    cases w with
    | nil => cases heq
    | cons d ds =>
      simp only [List.cons_append, List.cons.injEq] at heq
      obtain ⟨rfl, heq⟩ := heq
      -- the digits of a code are no commas, so that it is over before the comma
      have hfront : ∀ p, u = p ++ u' → ',' ∉ p → ∃ w', '\\' :: ds = '\\' :: u ++ q :: w' ∧
          r = w' ++ ',' :: '\n' :: s := by
        rintro p rfl hp
        rw [List.append_assoc] at heq
        obtain ⟨ds', rfl, hrest⟩ := Literal.exists_eq_append_of_not_mem heq.symm hp
        obtain ⟨w', rfl, hr⟩ := ih hrest
        exact ⟨w', by simp, hr⟩
      rcases Literal.unescape_cases hescape with ⟨e, rfl⟩ | ⟨digits, hdigits, hcode⟩
      · cases ds with
        | nil => exact absurd (List.cons.inj heq).2 (body_ne_newline hq hu)
        | cons d ds =>
          simp only [List.cons_append, List.cons.injEq] at heq
          obtain ⟨rfl, heq⟩ := heq
          obtain ⟨w', rfl, hr⟩ := ih heq
          exact ⟨w', rfl, hr⟩
      · have hcomma : ',' ∉ digits := Literal.not_mem_of_namedChar? hdigits (by decide)
        rcases hcode with rfl | rfl
        · exact hfront ('u' :: '{' :: digits ++ ['}']) (by simp) (by simpa using hcomma)
        · exact hfront ('u' :: digits) rfl (by simpa using hcomma)

theorem literal_before_comma (h : LiteralText u v) (heq : u ++ r = w ++ ',' :: '\n' :: s) :
    ∃ w', w = u ++ w' ∧ r = w' ++ ',' :: '\n' :: s := by
  cases h with
  | @quoted q u v hq hu =>
    cases w with
    | nil =>
      obtain rfl := (List.cons.inj heq).1
      cases hq
    | cons c cs =>
      simp only [List.cons_append, List.append_assoc, List.cons.injEq, List.nil_append] at heq
      obtain ⟨rfl, heq⟩ := heq
      obtain ⟨w', rfl, hr⟩ := body_before_comma hq hu heq
      exact ⟨w', by simp, hr⟩

/-! ## The first closing brace -/

/-- What comes after the first closing brace that is in no literal. -/
def Closes (s r : List Char) : Prop :=
  ∃ u, Outside (· ≠ '}') u ∧ u ++ '}' :: r = s

theorem Closes.append (h : Closes u r) : Closes (u ++ v) (r ++ v) := by
  obtain ⟨w, hw, rfl⟩ := h
  exact ⟨w, hw, by simp⟩

theorem Closes.after (hu : Outside (· ≠ '}') u) (h : Closes s r) : Closes (u ++ s) r := by
  obtain ⟨w, hw, rfl⟩ := h
  exact ⟨u ++ w, hu.append hw, by simp⟩

theorem closes_cons (h : Closes (c :: s) r) (hc : isQuote c = false) :
    c = '}' ∧ r = s ∨ c ≠ '}' ∧ Closes s r := by
  obtain ⟨u, hu, heq⟩ := h
  cases u with
  | nil =>
    cases heq
    exact .inl ⟨rfl, rfl⟩
  | cons d u =>
    obtain ⟨rfl, rfl⟩ := List.cons.inj heq
    obtain ⟨hd, hu⟩ := hu.of_cons hc
    exact .inr ⟨hd, u, hu, rfl⟩

theorem closes_literal (hu : LiteralText u v) (h : Closes (u ++ s) r) : Closes s r := by
  obtain ⟨w, hw, heq⟩ := h
  cases hw with
  | nil => exact absurd heq.symm (hu.ne_cons rfl)
  | char hquote _ _ => exact absurd heq.symm (hu.ne_cons hquote)
  | literal hw hrest =>
    rw [List.append_assoc] at heq
    exact ⟨_, hrest, hw.unique hu heq⟩

theorem closes_outside (hu : Outside (· ≠ '}') u) (h : Closes (u ++ s) r) : Closes s r := by
  induction hu with
  | nil => exact h
  | char hquote hc _ ih =>
    rcases closes_cons h hquote with ⟨rfl, -⟩ | ⟨-, h⟩
    · exact absurd rfl hc
    · exact ih h
  | literal hu _ ih =>
    rw [List.append_assoc] at h
    exact ih (closes_literal hu h)

theorem closes_line (hw : '}' ∉ w) (h : Closes (w ++ ',' :: '\n' :: s) r) : Closes s r := by
  obtain ⟨u, hu, heq⟩ := h
  induction hu generalizing w with
  | nil =>
    cases w with
    | nil => cases heq
    | cons c cs =>
      cases heq
      simp at hw
  | @char c u hquote hc hu ih =>
    cases w with
    | nil =>
      -- the comma has been passed, and the line feed is left
      have hrest : Closes ('\n' :: s) r := ⟨u, hu, (List.cons.inj heq).2⟩
      rcases closes_cons hrest rfl with ⟨hline, -⟩ | ⟨-, hrest⟩
      · cases hline
      · exact hrest
    | cons d ds => exact ih (List.not_mem_of_not_mem_cons hw) (List.cons.inj heq).2
  | literal hu _ ih =>
    rw [List.append_assoc] at heq
    obtain ⟨w', rfl, hrest⟩ := literal_before_comma hu heq
    rw [List.mem_append, not_or] at hw
    exact ih hw.2 hrest

/-! ## Braces -/

def IsBrace (c : Char) : Prop :=
  c = '{' ∨ c = '}'

/-- Outside of literals a text has no braces, or a closing one. -/
def Braced (u : List Char) : Prop :=
  Outside (¬ IsBrace ·) u ∨ ∃ r, Closes u r

theorem outside_closing (h : Outside (¬ IsBrace ·) u) : Outside (· ≠ '}') u :=
  h.imp fun _ hc heq => hc (.inr heq)

theorem Braced.append (hu : Braced u) (hv : Braced v) : Braced (u ++ v) := by
  rcases hu with hu | ⟨r, hu⟩
  · rcases hv with hv | ⟨r, hv⟩
    · exact .inl (hu.append hv)
    · exact .inr ⟨r, hv.after (outside_closing hu)⟩
  · exact .inr ⟨r ++ v, hu.append⟩

theorem braced_of_forall (h : ∀ c ∈ u, isQuote c = false ∧ ¬ IsBrace c) : Braced u :=
  .inl (outside_of_forall h)

theorem braced_literal (h : LiteralText u v) : Braced u :=
  .inl (outside_literal h)

theorem outside_gap (h : Gap u) : Outside (¬ IsBrace ·) u := by
  refine outside_of_forall fun c hc => ?_
  rcases eq_of_isGap (h c hc) with rfl | rfl | rfl | rfl <;> exact ⟨rfl, by simp [IsBrace]⟩

theorem braced_gap (h : Gap u) : Braced u :=
  .inl (outside_gap h)

theorem braced_sign (h : Sign c w) (hc : isQuote c = false ∧ ¬ IsBrace c) : Braced w := by
  obtain ⟨g, hg, rfl⟩ := h
  exact (braced_gap hg).append (braced_of_forall (by simpa using hc))

theorem braced_optionalSign (h : OptionalSign c present w) (hc : isQuote c = false ∧ ¬ IsBrace c) :
    Braced w := by
  cases present with
  | true => exact braced_sign h hc
  | false =>
    obtain rfl := h
    exact .inl .nil

theorem braced_separator (h : Separator w) : Braced w := by
  rcases h with h | h <;> exact braced_sign h ⟨rfl, by simp [IsBrace]⟩

theorem braced_identifier (h : isIdentifier u) : Braced u := by
  have hplain : ∀ c, isIdentRest c → isQuote c = false ∧ ¬ IsBrace c := by
    intro c hc
    constructor
    · refine Bool.eq_false_iff.2 fun hquote => ?_
      rcases Literal.eq_of_isQuote hquote with rfl | rfl <;> cases hc
    · rintro (rfl | rfl) <;> cases hc
  obtain ⟨c, cs, rfl, hc⟩ := Parser.isIdentStart_head h
  obtain ⟨-, hcs⟩ := Bool.and_eq_true_iff.1 h
  refine braced_of_forall (List.forall_mem_cons.2 ⟨hplain c (Text.isIdentRest_of_isIdentStart hc), ?_⟩)
  exact fun d hd => hplain d (List.all_eq_true.1 hcs d hd)

theorem braced_dottedName (h : DottedName u) : Braced u := by
  induction h with
  | identifier hu => exact braced_identifier hu
  | @dotted u v hu _ ih =>
    have hdot : Braced ['.'] := braced_of_forall (by simp [IsBrace, isQuote])
    exact (braced_identifier hu).append (hdot.append ih)

theorem braced_key (h : KeyText u v) : Braced u := by
  cases h with
  | literal hu => exact braced_literal hu
  | bare hu => exact braced_identifier hu

theorem braced_dimensions (h : Dimensions u t t') : Braced u := by
  induction h with
  | none => exact .inl .nil
  | array hw hw' _ ih =>
    exact ((braced_sign hw ⟨rfl, by simp [IsBrace]⟩).append
      (braced_sign hw' ⟨rfl, by simp [IsBrace]⟩)).append ih

theorem closes_closing : Closes (TypeExpr.closing exact) [] := by
  cases exact with
  | true => exact ⟨['|'], outside_of_forall (by simp [isQuote]), rfl⟩
  | false => exact ⟨[], .nil, rfl⟩

theorem closes_object (hg : Gap g) (hu : Braced u) (hg' : Gap g') :
    ∃ r, Closes (TypeExpr.opening exact ++ g ++ u ++ g' ++ TypeExpr.closing exact) r := by
  have hopen : Outside (· ≠ '}') (TypeExpr.opening exact) := by
    cases exact <;> exact outside_of_forall (by simp [TypeExpr.opening, isQuote])
  have hfront : Outside (· ≠ '}') (TypeExpr.opening exact ++ g) :=
    hopen.append (outside_closing (outside_gap hg))
  rcases hu with hu | ⟨r, hu⟩
  · have hbefore : Outside (· ≠ '}') (TypeExpr.opening exact ++ g ++ u ++ g') :=
      (hfront.append (outside_closing hu)).append (outside_closing (outside_gap hg'))
    exact ⟨[], closes_closing.after hbefore⟩
  · exact ⟨_, ((hu.after hfront).append).append⟩

/-! ## Types -/

theorem braced_optionalSeparator (h : OptionalSeparator w) : Braced w := by
  rcases h with rfl | h
  · exact .inl .nil
  · exact braced_separator h

theorem braced_type (h : TypeText u t) : Braced u := by
  -- one case for each way to put a text together
  refine @TypeText.rec (fun u _ _ => Braced u) (fun u _ _ => Braced u) (fun u _ _ => Braced u)
    (fun u _ _ => Braced u) (fun u _ _ => Braced u) (fun u _ _ => Braced u) ?members ?member
    ?moreMembers ?maybe ?dimensions ?literal ?object ?parentheses ?named ?noProperty ?property
    ?moreProperties ?keyed u t h
  case members =>
    intro _ _ _ _ _ _ hw hg _ hu
    exact ((braced_optionalSign hw ⟨rfl, by simp [IsBrace]⟩).append (braced_gap hg)).append hu
  case member =>
    intro _ _ _ hu
    exact hu
  case moreMembers =>
    intro _ _ _ _ _ _ _ hw hg _ hu hv
    exact ((hu.append (braced_sign hw ⟨rfl, by simp [IsBrace]⟩)).append (braced_gap hg)).append hv
  case maybe =>
    intro _ _ _ hg _ hu
    have hmark : Braced ['?'] := braced_of_forall (by simp [IsBrace, isQuote])
    exact (hmark.append (braced_gap hg)).append hu
  case dimensions =>
    intro _ _ _ _ _ hv hu
    exact hu.append (braced_dimensions hv)
  case literal =>
    intro _ _ hu
    exact braced_literal hu
  -- only here is a brace that is in no literal
  case object =>
    intro _ _ _ _ _ hg _ hg' hu
    exact .inr (closes_object hg hu hg')
  case parentheses =>
    intro _ _ _ _ hw hu
    have hopen : Braced ['('] := braced_of_forall (by simp [IsBrace, isQuote])
    exact (hopen.append hu).append (braced_sign hw ⟨rfl, by simp [IsBrace]⟩)
  case named =>
    intro _ hu
    exact braced_dottedName hu
  case noProperty =>
    intro _ hw
    exact braced_optionalSeparator hw
  case property =>
    intro _ _ _ _ hw hu
    exact hu.append (braced_optionalSeparator hw)
  case moreProperties =>
    intro _ _ _ _ _ _ _ _ hw hg _ hu hv
    exact ((hu.append (braced_separator hw)).append (braced_gap hg)).append hv
  case keyed =>
    intro _ _ _ _ _ _ _ hu hw hw' _ hv
    exact (((braced_key hu).append (braced_optionalSign hw ⟨rfl, by simp [IsBrace]⟩)).append
      (braced_sign hw' ⟨rfl, by simp [IsBrace]⟩)).append hv

theorem isQuote_of_isGap (h : Text.isGap c) : isQuote c = false := by
  rcases eq_of_isGap h with rfl | rfl | rfl | rfl <;> rfl

theorem Outside.of_gap (hg : Gap g) (h : Outside p (g ++ u)) : Outside p u := by
  induction g with
  | nil => exact h
  | cons c g ih =>
    obtain ⟨hc, hg⟩ := List.forall_mem_cons.1 hg
    exact ih hg (h.of_cons (isQuote_of_isGap hc)).2

theorem not_gap_of_type (h : TypeText u t) : skipGap u ≠ [] := by
  cases h with
  | @members leading w g u _ _ hw hg hu =>
    rw [List.append_assoc]
    cases leading with
    | true => simp [Parser.Sign.skipGap_eq hw rfl]
    | false =>
      obtain rfl := hw
      have hstart := Parser.starts_members hu
      rw [List.nil_append, skipGap_append_eq hg (hstart.noGap Parser.isMemberStart_of_isGap)]
      exact hstart.ne_nil

theorem closes_type (h : TypeText u t) (hs : (skipGap (u ++ r)).head? = some '{') :
    ∃ r', Closes u r' := by
  obtain ⟨g, hg, hu⟩ := exists_gap u
  have hnext : NoGap (skipGap u) := noGap_skipGap
  cases hskip : skipGap u with
  | nil => exact absurd hskip (not_gap_of_type h)
  | cons c cs =>
    rw [hskip] at hu hnext
    have hfront : NoGap (c :: cs ++ r) := hnext
    rw [hu, List.append_assoc, skipGap_append_eq hg hfront] at hs
    cases hs
    rcases braced_type h with hout | hcloses
    · rw [hu] at hout
      exact absurd (.inl rfl) (Outside.of_cons (hout.of_gap hg) rfl).1
    · exact hcloses

end ModelTypes.Grammar
