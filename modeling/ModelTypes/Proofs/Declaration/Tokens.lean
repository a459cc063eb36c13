import ModelTypes.Declaration.Parser
import ModelTypes.Proofs.Declaration.Literal

/-!
# Reading tokens

Each token reader takes exactly what the grammar calls that token. Where a token may be absent, the
reader takes it if it is there, so what follows must not begin with it.
-/

namespace ModelTypes

namespace Grammar

open Text (isGap isIdentRest isIdentStart skipGap)

variable {g u v w r s : List Char}

/-! ## Gaps -/

theorem gap_nil : Gap [] := by
  simp [Gap]

theorem gap_space : Gap [' '] :=
  List.forall_mem_singleton.2 rfl

theorem Gap.append (hg : Gap g) (hv : Gap v) : Gap (g ++ v) := by
  intro c hc
  rcases List.mem_append.1 hc with hc | hc
  · exact hg c hc
  · exact hv c hc

def NoGap (s : List Char) : Prop :=
  s.head?.any isGap = false

theorem NoGap.skipGap_eq (h : NoGap s) : skipGap s = s :=
  Text.dropWhile_append (u := []) (by simp) h

theorem skipGap_append (hg : Gap g) : skipGap (g ++ s) = skipGap s :=
  List.dropWhile_append_of_pos hg

theorem skipGap_append_eq (hg : Gap g) (hs : NoGap s) : skipGap (g ++ s) = s := by
  rw [skipGap_append hg, hs.skipGap_eq]

theorem noGap_skipGap : NoGap (skipGap s) :=
  Text.head?_dropWhile

theorem exists_gap (s : List Char) : ∃ g, Gap g ∧ s = g ++ skipGap s :=
  ⟨s.takeWhile isGap, fun _ hc => List.all_eq_true.1 List.all_takeWhile _ hc,
    List.takeWhile_append_dropWhile.symm⟩

/-! ## Word boundaries -/

theorem eq_of_isGap (h : isGap c) : c = ' ' ∨ c = '\t' ∨ c = '\r' ∨ c = '\n' := by
  simpa only [isGap, Bool.or_eq_true, beq_iff_eq, or_assoc] using h

theorem isIdentStart_of_isGap (c : Char) (h : isGap c) : isIdentStart c = false := by
  rcases eq_of_isGap h with rfl | rfl | rfl | rfl <;> rfl

theorem not_isIdentRest_of_isGap (h : isGap c) : isIdentRest c = false := by
  rcases eq_of_isGap h with rfl | rfl | rfl | rfl <;> decide

theorem Gap.wordEnd (hg : Gap g) (hs : WordEnd s) : WordEnd (g ++ s) := by
  cases g with
  | nil => exact hs
  | cons c cs => exact not_isIdentRest_of_isGap (hg c (by simp))

theorem Gap.wordEnd_of_ne_nil (hg : Gap g) (hne : g ≠ []) : WordEnd (g ++ s) := by
  cases g with
  | nil => exact absurd rfl hne
  | cons c cs => exact not_isIdentRest_of_isGap (hg c (by simp))

theorem sign_self : Sign c [c] :=
  ⟨[], gap_nil, rfl⟩

theorem optionalSign_self : OptionalSign c present (if present then [c] else []) := by
  cases present with
  | true => exact sign_self
  | false => rfl

theorem Sign.wordEnd (h : Sign c w) (hc : isIdentRest c = false) : WordEnd (w ++ s) := by
  obtain ⟨g, hg, rfl⟩ := h
  rw [List.append_assoc]
  exact hg.wordEnd hc

theorem WordEnd.apart (h : WordEnd v) : Apart u v :=
  fun _ => h

theorem apart_append (hv : v ≠ []) : Apart (u ++ v) r ↔ Apart v r := by
  rw [Apart, Apart, List.getLast?_append, List.getLast?_eq_some_getLast hv]
  rfl

theorem apart_concat (hc : isIdentRest c = false) : Apart (u ++ [c]) r := by
  simp [Apart, hc]

theorem Sign.ne_nil (h : Sign c w) : w ≠ [] := by
  obtain ⟨g, -, rfl⟩ := h
  simp

theorem Sign.length_pos (h : Sign c w) : 0 < w.length :=
  List.length_pos_iff.2 h.ne_nil

theorem Sign.apart (h : Sign c w) (hc : isIdentRest c = false) : Apart (u ++ w) r := by
  rw [apart_append h.ne_nil]
  obtain ⟨g, -, rfl⟩ := h
  exact apart_concat hc

theorem Sign.after_gap (hg : Gap g) (h : Sign c w) : Sign c (g ++ w) := by
  obtain ⟨g', hg', rfl⟩ := h
  exact ⟨g ++ g', hg.append hg', by simp⟩

theorem Separator.wordEnd (h : Separator w) : WordEnd (w ++ s) := by
  rcases h with h | h <;> exact h.wordEnd rfl

theorem Separator.length_pos (h : Separator w) : 0 < w.length := by
  rcases h with h | h <;> exact h.length_pos

theorem Separator.after_gap (hg : Gap g) (h : Separator w) : Separator (g ++ w) :=
  h.imp (Sign.after_gap hg) (Sign.after_gap hg)

end Grammar

namespace Parser

open Grammar
open Text (isGap isIdentifier isIdentRest isIdentStart skipGap)

variable {s r u v w : List Char}

/-! ## Names -/

theorem identifier?_iff : (identifier? s).map Parsed.pair = some (u, r) ↔
    isIdentifier u ∧ WordEnd r ∧ s = u ++ r := by
  constructor
  · intro h
    cases s with
    | nil => cases h
    | cons c cs =>
      rw [identifier?] at h
      split at h
      · next hc =>
        simp at h
        obtain ⟨rfl, rfl⟩ := h
        exact ⟨by simp [isIdentifier, hc], Text.head?_dropWhile, by simp⟩
      · cases h
  · rintro ⟨hu, hr, rfl⟩
    cases u with
    | nil => cases hu
    | cons c cs =>
      obtain ⟨hc, hcs⟩ := Bool.and_eq_true_iff.1 hu
      -- the run of characters ends where the word does
      have hall : ∀ d ∈ cs, isIdentRest d := List.all_eq_true.1 hcs
      simp [identifier?, hc, Text.takeWhile_append hall hr, Text.dropWhile_append hall hr]

theorem identifier?_eq_none (h : s.head?.any isIdentStart = false) : identifier? s = none := by
  cases s with
  | nil => rfl
  | cons c cs => simpa [identifier?] using h

theorem dottedParts_sound (hu : isIdentifier u) (hs : WordEnd s)
    (h : (dottedParts s).pair = (v, r)) : DottedName (u ++ v) ∧ WordEnd r ∧ s = v ++ r := by
  -- the name read so far grows with each part
  fun_induction dottedParts s generalizing u v with
  | case1 cs part rest hlt hread ih =>
    obtain ⟨hpart, hrest, rfl⟩ := identifier?_iff.1 (Parsed.map_pair_some.2 ⟨_, hread⟩)
    rcases hp : dottedParts rest with ⟨v', r', h'⟩
    simp [hp] at h
    obtain ⟨rfl, rfl⟩ := h
    obtain ⟨hname, hr, rfl⟩ := ih hpart hrest (v := v') (by simp [hp])
    exact ⟨by simpa using DottedName.dotted hu hname, hr, by simp⟩
  | case2 | case3 =>
    rw [Parsed.pair_nothing] at h
    cases h
    exact ⟨by simpa using DottedName.identifier hu, hs, rfl⟩

theorem dottedParts_nil (hdot : r.head? ≠ some '.') : (dottedParts r).pair = ([], r) := by
  rw [dottedParts]
  · rfl
  · rintro x rfl
    simp at hdot

theorem dottedParts_complete (hv : DottedName v) (hr : WordEnd r) (hdot : r.head? ≠ some '.') :
    (dottedParts ('.' :: (v ++ r))).pair = ('.' :: v, r) := by
  -- a further part begins with a dot, which ends the word before it
  induction hv with
  | @identifier u hu =>
    obtain ⟨h, hread⟩ := Parsed.map_pair_some.1 (identifier?_iff.2 ⟨hu, hr, rfl⟩)
    rw [dottedParts, hread]
    simp [dottedParts_nil hdot]
  | @dotted u v hu _ ih =>
    obtain ⟨h, hread⟩ := Parsed.map_pair_some.1
      (identifier?_iff.2 ⟨hu, show WordEnd ('.' :: (v ++ r)) from rfl, rfl⟩)
    rw [List.append_assoc, List.cons_append, dottedParts, hread]
    simp [ih]

theorem dottedName?_sound (h : (dottedName? s).map Parsed.pair = some (u, r)) :
    DottedName u ∧ WordEnd r ∧ s = u ++ r := by
  simp only [dottedName?, Option.bind_eq_bind, Option.map_bind, Option.bind_eq_some_iff] at h
  obtain ⟨⟨first, rest, hlt⟩, hfirst, h⟩ := h
  obtain ⟨hname, hrest, rfl⟩ := identifier?_iff.1 (Parsed.map_pair_some.2 ⟨_, hfirst⟩)
  rcases hp : dottedParts rest with ⟨v, r', h'⟩
  simp [hp] at h
  obtain ⟨rfl, rfl⟩ := h
  obtain ⟨hdotted, hr, rfl⟩ := dottedParts_sound hname hrest (v := v) (r := r') (by simp [hp])
  exact ⟨hdotted, hr, by simp⟩

theorem dottedName?_complete (hu : DottedName u) (hr : WordEnd r) (hdot : r.head? ≠ some '.') :
    (dottedName? (u ++ r)).map Parsed.pair = some (u, r) := by
  cases hu with
  | identifier hu =>
    obtain ⟨h, hread⟩ := Parsed.map_pair_some.1 (identifier?_iff.2 ⟨hu, hr, rfl⟩)
    simp [dottedName?, hread, dottedParts_nil hdot]
  | @dotted u v hu hv =>
    obtain ⟨h, hread⟩ := Parsed.map_pair_some.1
      (identifier?_iff.2 ⟨hu, show WordEnd ('.' :: (v ++ r)) from rfl, rfl⟩)
    rw [List.append_assoc, List.cons_append, dottedName?, hread]
    simp [dottedParts_complete hv hr hdot]

theorem dottedName?_eq_none (h : s.head?.any isIdentStart = false) : dottedName? s = none := by
  simp [dottedName?, identifier?_eq_none h]

/-! ## Keywords -/

theorem keyword_iff : (keyword k s).map Parsed.pair = .ok ((), r) ↔
    WordEnd r ∧ s = k.text ++ r := by
  constructor
  · intro h
    rw [keyword] at h
    split at h
    · cases h
    · next rest hrest =>
      split at h
      · cases h
      · next hend =>
        cases h
        exact ⟨by simpa [WordEnd] using hend, eq_append_of_dropFront? hrest⟩
  · rintro ⟨hr, rfl⟩
    rw [keyword]
    split
    · next hnone => cases dropFront?_append.symm.trans hnone
    · next rest hrest =>
      cases dropFront?_append.symm.trans hrest
      rw [if_neg (by simp [show r.head?.any isIdentRest = false from hr])]
      rfl

theorem optionalKeyword_sound (h : (optionalKeyword k s).pair = (present, r)) :
    ∃ w, OptionalKeyword k.text present w ∧ s = w ++ r := by
  rw [optionalKeyword] at h
  split at h
  · next rest hlt hk =>
    obtain ⟨-, hs⟩ := keyword_iff.1 (Parsed.map_pair_ok.2 ⟨_, hk⟩)
    split at h
    · next hgap =>
      rw [Parsed.pair_mk, Prod.mk.injEq] at h
      obtain ⟨rfl, rfl⟩ := h
      obtain ⟨g, hg, hrest⟩ := exists_gap rest
      refine ⟨k.text ++ g, ⟨g, hg, ?_, rfl⟩, by rw [List.append_assoc, ← hrest, hs]⟩
      -- with an empty gap the blank that was seen after the keyword would not be there
      rintro rfl
      have hno : NoGap rest := by rw [hrest]; exact noGap_skipGap
      rw [show rest.head?.any isGap = false from hno] at hgap
      cases hgap
    · rw [Parsed.pair_nothing, Prod.mk.injEq] at h
      obtain ⟨rfl, rfl⟩ := h
      exact ⟨[], rfl, rfl⟩
  · rw [Parsed.pair_nothing, Prod.mk.injEq] at h
    obtain ⟨rfl, rfl⟩ := h
    exact ⟨[], rfl, rfl⟩

theorem optionalKeyword_present (hg : Gap g) (hne : g ≠ []) (hr : NoGap r) :
    (optionalKeyword k (k.text ++ g ++ r)).pair = (true, r) := by
  obtain ⟨h, hk⟩ := Parsed.map_pair_ok.1 (keyword_iff (k := k).2
    ⟨hg.wordEnd_of_ne_nil (s := r) hne, rfl⟩)
  -- the reader looks at the first character of the gap only
  have hgap : (g ++ r).head?.any isGap = true := by
    cases g with
    | nil => exact absurd rfl hne
    | cons c cs => exact hg c (by simp)
  rw [List.append_assoc, optionalKeyword, hk]
  simp only [hgap, ↓reduceIte, Parsed.pair_mk, skipGap_append_eq hg hr]

theorem optionalKeyword_absent (h : dropFront? k.text s = none) :
    (optionalKeyword k s).pair = (false, s) := by
  have hk : keyword k s = .error ⟨.noKeyword, s⟩ := by
    rw [keyword]
    split
    · rfl
    · next hsome => cases h.symm.trans hsome
  rw [optionalKeyword, hk]
  rfl

/-! ## Signs -/

theorem sign?_sound (h : (sign? c s).map Parsed.pair = some (a, r)) :
    ∃ w, Sign c w ∧ s = w ++ r := by
  rw [sign?] at h
  split at h
  · next d rest hs =>
    split at h
    · next hd =>
      simp only [Option.map_some, Parsed.pair_mk, Option.some.injEq, Prod.mk.injEq] at h
      obtain ⟨-, rfl⟩ := h
      obtain ⟨g, hg, hgap⟩ := exists_gap s
      rw [hs, hd] at hgap
      exact ⟨g ++ [c], ⟨g, hg, rfl⟩, by rw [hgap]; simp⟩
    · cases h
  · cases h

theorem Sign.skipGap_eq (h : Sign c w) (hc : isGap c = false) : skipGap (w ++ r) = c :: r := by
  obtain ⟨g, hg, rfl⟩ := h
  rw [List.append_assoc]
  exact skipGap_append_eq hg hc

theorem sign?_eq_none (h : (skipGap s).head? ≠ some c) : sign? c s = none := by
  rw [sign?]
  split
  · next d rest hs => rw [if_neg]; rintro rfl; simp [hs] at h
  · rfl

theorem sign?_complete (h : Sign c w) (hc : isGap c = false) :
    (sign? c (w ++ r)).map Parsed.pair = some ((), r) := by
  -- the reader skips the gap of the sign and nothing after it
  have hs := Sign.skipGap_eq (r := r) h hc
  rw [sign?]
  split
  · next d rest hd =>
    cases hs.symm.trans hd
    rw [if_pos rfl]
    rfl
  · next hnil => cases hs.symm.trans hnil

theorem optionalSign_sound (h : (optionalSign c s).pair = (present, r)) :
    ∃ w, OptionalSign c present w ∧ s = w ++ r := by
  rw [optionalSign] at h
  split at h
  · next rest hlt hsign =>
    cases h
    exact sign?_sound (Parsed.map_pair_some.2 ⟨_, hsign⟩)
  · cases h
    exact ⟨[], rfl, rfl⟩

theorem optionalSign_complete (h : OptionalSign c present w) (hc : isGap c = false)
    (hr : present = false → (skipGap r).head? ≠ some c) :
    (optionalSign c (w ++ r)).pair = (present, r) := by
  cases present with
  | true =>
    obtain ⟨h, hsign⟩ := Parsed.map_pair_some.1 (sign?_complete (r := r) h hc)
    rw [optionalSign, hsign]
    rfl
  | false =>
    cases h
    rw [List.nil_append, optionalSign, sign?_eq_none (hr rfl)]
    rfl

theorem separator?_eq : separator? s = (sign? ',' s <|> sign? ';' s) := by
  rw [separator?, sign?, sign?]
  split
  · next c rest hs =>
    by_cases hcomma : c = ','
    · simp [hcomma]
    · by_cases hsemi : c = ';' <;> simp [hcomma, hsemi]
  · rfl

theorem separator?_sound (h : (separator? s).map Parsed.pair = some (a, r)) :
    ∃ w, Separator w ∧ s = w ++ r := by
  rw [separator?_eq] at h
  -- the first choice wins, but either of them is a separator
  cases hcomma : sign? ',' s with
  | some p =>
    rw [hcomma] at h
    obtain ⟨w, hw, hs⟩ := sign?_sound (by rw [hcomma]; exact h)
    exact ⟨w, .inl hw, hs⟩
  | none =>
    rw [hcomma] at h
    obtain ⟨w, hw, hs⟩ := sign?_sound h
    exact ⟨w, .inr hw, hs⟩

theorem separator?_complete (h : Separator w) :
    (separator? (w ++ r)).map Parsed.pair = some ((), r) := by
  rw [separator?_eq]
  rcases h with h | h
  · obtain ⟨h', hsign⟩ := Parsed.map_pair_some.1 (sign?_complete (r := r) h rfl)
    rw [hsign]
    rfl
  · rw [sign?_eq_none (by rw [Sign.skipGap_eq h rfl]; simp)]
    exact sign?_complete h rfl

theorem separator?_eq_none (hcomma : (skipGap s).head? ≠ some ',')
    (hsemi : (skipGap s).head? ≠ some ';') : separator? s = none := by
  rw [separator?_eq, sign?_eq_none hcomma, sign?_eq_none hsemi]
  rfl

theorem optionalSeparator_sound (h : (optionalSeparator s).pair = (present, r)) :
    ∃ w, OptionalSeparator w ∧ s = w ++ r := by
  rw [optionalSeparator] at h
  split at h
  · next rest hlt hsep =>
    cases h
    obtain ⟨w, hw, hs⟩ := separator?_sound (Parsed.map_pair_some.2 ⟨_, hsep⟩)
    exact ⟨w, .inr hw, hs⟩
  · cases h
    exact ⟨[], .inl rfl, rfl⟩

theorem optionalSeparator_present (h : Separator w) :
    (optionalSeparator (w ++ r)).pair = (true, r) := by
  obtain ⟨hlt, hsep⟩ := Parsed.map_pair_some.1 (separator?_complete (r := r) h)
  rw [optionalSeparator, hsep]
  rfl

theorem optionalSeparator_absent (h : separator? s = none) :
    (optionalSeparator s).pair = (false, s) := by
  rw [optionalSeparator, h]
  rfl

theorem dimensions_sound (h : (dimensions t s).pair = (t', r)) :
    ∃ v, Dimensions v t t' ∧ s = v ++ r := by
  fun_induction dimensions t s with
  | case1 t s u₁ afterOpen h₁ hopen u₂ rest h₂ hclose ih =>
    rw [Parsed.pair_widen] at h
    -- read from the inside, since each pair of brackets wraps what stands before it
    obtain ⟨v, hv, rfl⟩ := ih h
    obtain ⟨w', hw', rfl⟩ := sign?_sound (Parsed.map_pair_some.2 ⟨_, hclose⟩)
    obtain ⟨w, hw, rfl⟩ := sign?_sound (Parsed.map_pair_some.2 ⟨_, hopen⟩)
    exact ⟨_, .array hw hw' hv, by simp⟩
  | case2 | case3 =>
    cases h
    exact ⟨[], .none, rfl⟩

theorem dimensions_complete (hv : Dimensions v t t') (hr : (skipGap r).head? ≠ some '[') :
    (dimensions t (v ++ r)).pair = (t', r) := by
  induction hv with
  | none =>
    rw [List.nil_append, dimensions, sign?_eq_none hr]
    rfl
  | @array w w' v t t' hw hw' _ ih =>
    obtain ⟨h, hopen⟩ := Parsed.map_pair_some.1 (sign?_complete (r := w' ++ (v ++ r)) hw rfl)
    obtain ⟨h', hclose⟩ := Parsed.map_pair_some.1 (sign?_complete (r := v ++ r) hw' rfl)
    rw [List.append_assoc, List.append_assoc, dimensions, hopen]
    simp only [hclose, Parsed.pair_widen, ih]

/-! ## Literals and keys -/

theorem literal?_iff : (literal? s).map (·.map Parsed.pair) = .ok (some (v, r)) ↔
    ∃ u, LiteralText u v ∧ s = u ++ r := by
  constructor
  · intro h
    cases s with
    | nil => cases h
    | cons c rest =>
      rw [literal?] at h
      split at h
      · next hc =>
        split at h
        · next p hp =>
          simp only [except_map_ok, Option.map_some, Parsed.pair_after, Except.ok.injEq,
            Option.some.injEq] at h
          obtain ⟨u, hu, rfl⟩ := (Literal.readRest?_iff hc).1 (by rw [hp, Option.map_some, h])
          exact ⟨_, .quoted hc hu, by simp⟩
        · cases h
      · cases h
  · rintro ⟨u, ⟨hq, hu⟩, rfl⟩
    -- the quote in front is the one that the body ends with
    obtain ⟨h, hread⟩ := Parsed.map_pair_some.1 (Literal.readRest?_complete (r := r) hq hu)
    rw [List.append_assoc, List.cons_append, literal?, if_pos hq]
    simp [hread]

theorem literal?_eq_none (h : s.head?.any Literal.isQuote = false) : literal? s = .ok none := by
  cases s with
  | nil => rfl
  | cons c rest =>
    rw [literal?, if_neg]
    simpa using h

theorem key?_sound (h : (key? s).map (·.map Parsed.pair) = .ok (some (v, r))) :
    ∃ u, KeyText u v ∧ s = u ++ r := by
  rw [key?] at h
  split at h
  · cases h
  · next p hp =>
    obtain ⟨u, hu, hs⟩ := literal?_iff.1 (by rw [hp]; exact h)
    exact ⟨u, .literal hu, hs⟩
  · simp only [except_map_ok, Except.ok.injEq] at h
    obtain ⟨hv, -, rfl⟩ := identifier?_iff.1 h
    exact ⟨v, .bare hv, rfl⟩

theorem not_isQuote_of_isIdentStart (h : isIdentStart c) : Literal.isQuote c = false := by
  rw [Bool.eq_false_iff]
  intro hq
  rcases Literal.eq_of_isQuote hq with rfl | rfl <;> exact absurd h (by decide)

theorem isIdentStart_head (h : isIdentifier u) : ∃ c cs, u = c :: cs ∧ isIdentStart c := by
  cases u with
  | nil => cases h
  | cons c cs => exact ⟨c, cs, rfl, (Bool.and_eq_true_iff.1 h).1⟩

theorem key?_complete (h : KeyText u v) (hr : WordEnd r) :
    (key? (u ++ r)).map (·.map Parsed.pair) = .ok (some (v, r)) := by
  cases h with
  | literal hu =>
    obtain ⟨h, hread⟩ := Parsed.map_pair_ok_some.1 (literal?_iff.2 ⟨u, hu, rfl⟩)
    rw [key?, hread]
    rfl
  | bare hu =>
    obtain ⟨c, cs, rfl, hc⟩ := isIdentStart_head hu
    -- a bare key begins with no quote, so it is not taken for a literal
    rw [key?, literal?_eq_none (s := c :: cs ++ r) (not_isQuote_of_isIdentStart hc)]
    simp only [except_map_ok, identifier?_iff.2 ⟨hu, hr, rfl⟩]

theorem key?_eq_none (hq : s.head?.any Literal.isQuote = false)
    (hi : s.head?.any isIdentStart = false) : key? s = .ok none := by
  rw [key?, literal?_eq_none hq]
  simp only [identifier?_eq_none hi]

/-! ## The end of an object -/

theorem noGap_closing : NoGap (TypeExpr.closing exact ++ r) := by
  cases exact <;> rfl

theorem closeObject_iff : (closeObject exact s).map Parsed.pair = .ok ((), r) ↔
    ∃ g, Gap g ∧ s = g ++ TypeExpr.closing exact ++ r := by
  constructor
  · intro h
    rw [closeObject] at h
    split at h
    · next rest hrest =>
      simp only [except_map_ok, Parsed.pair_mk, Except.ok.injEq, Prod.mk.injEq] at h
      obtain ⟨g, hg, hgap⟩ := exists_gap s
      rw [eq_append_of_dropFront? hrest, h.2, ← List.append_assoc] at hgap
      exact ⟨g, hg, hgap⟩
    · cases h
  · rintro ⟨g, hg, rfl⟩
    -- no gap is left in front of the closing delimiter
    have hfront : dropFront? (TypeExpr.closing exact)
        (skipGap (g ++ TypeExpr.closing exact ++ r)) = some r := by
      rw [List.append_assoc, skipGap_append_eq hg noGap_closing, dropFront?_append]
    rw [closeObject]
    split
    · next rest hrest =>
      cases hfront.symm.trans hrest
      rfl
    · next hnone => cases hfront.symm.trans hnone

end Parser

end ModelTypes
