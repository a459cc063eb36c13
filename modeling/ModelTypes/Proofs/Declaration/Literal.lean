import ModelTypes.Proofs.Declaration.Grammar

/-!
# Literals and their grammar

`readRest?_iff`: the reader of a literal takes exactly the texts of `Grammar.LiteralBody`. An escape
may look far ahead for its digits, but never past the closing quote, since a quote is no digit.
-/

namespace ModelTypes.Literal

open Grammar (LiteralBody)
open Text (hexDigit? hexNumber?)

/-! ## Codes -/

theorem eq_of_isQuote (h : isQuote q) : q = '"' ∨ q = '\'' := by
  simpa only [isQuote, Bool.or_eq_true, beq_iff_eq] using h

theorem hexDigit?_of_isQuote (h : isQuote q) : hexDigit? q = none := by
  rcases eq_of_isQuote h with rfl | rfl <;> rfl

theorem isSome_hexDigit? {digits : List Char} (h : hexNumber? n digits = some m) (hc : c ∈ digits) :
    (hexDigit? c).isSome := by
  -- the number read so far changes with every digit
  induction digits generalizing n with
  | nil => cases hc
  | cons d ds ih =>
    simp only [hexNumber?, Option.bind_eq_bind, Option.bind_eq_some_iff] at h
    obtain ⟨k, hk, h⟩ := h
    rcases List.mem_cons.1 hc with rfl | hc
    · simp [hk]
    · exact ih h hc

theorem hexDigit?_lt (h : hexDigit? c = some n) : n < 16 := by
  have hle : ∀ {a b : Char}, a ≤ b → a.toNat ≤ b.toNat := fun h => h
  unfold hexDigit? at h
  split at h
  · next hc =>
    have h9 : c.toNat ≤ 57 := hle hc.2
    obtain rfl : c.toNat - 48 = n := Option.some.inj h
    omega
  split at h
  · next hc =>
    have hf : c.toNat ≤ 102 := hle hc.2
    obtain rfl : c.toNat - 97 + 10 = n := Option.some.inj h
    omega
  split at h
  · next hc =>
    have hf : c.toNat ≤ 70 := hle hc.2
    obtain rfl : c.toNat - 65 + 10 = n := Option.some.inj h
    omega
  · cases h

theorem hexNumber?_lt {digits : List Char} (hl : digits.length = 4)
    (h : hexNumber? 0 digits = some n) : n < 0x10000 := by
  match digits, hl with
  | [a, b, c, d], _ =>
    simp only [hexNumber?, Option.bind_eq_bind, Option.bind_eq_some_iff] at h
    obtain ⟨i, hi, j, hj, k, hk, l, hl, h⟩ := h
    obtain rfl := Option.some.inj h
    have hi := hexDigit?_lt hi
    have hj := hexDigit?_lt hj
    have hk := hexDigit?_lt hk
    have hl := hexDigit?_lt hl
    omega

theorem not_mem_of_namedChar? {digits : List Char} (h : namedChar? digits = some d)
    (hc : hexDigit? c = none) : c ∉ digits := by
  intro hm
  cases digits with
  | nil => cases hm
  | cons x xs =>
    simp only [namedChar?, Option.bind_eq_some_iff] at h
    obtain ⟨n, hn, -⟩ := h
    simpa [hc] using isSome_hexDigit? hn hm

theorem codePoint?_iff {s r : List Char} : (codePoint? s).map Parsed.pair = some (d, r) ↔
    ∃ digits, namedChar? digits = some d ∧
      (s = '{' :: digits ++ '}' :: r ∨ digits.length = 4 ∧ s = digits ++ r) := by
  constructor
  · intro hs
    -- the cases of the reader: braces, four digits, anything else
    obtain ⟨h, hs⟩ := Parsed.map_pair_some.1 hs
    unfold codePoint? at hs
    split at hs
    · next rest =>
      split at hs
      · next after hdrop =>
        simp only [Option.bind_eq_bind, Option.bind_eq_some_iff] at hs
        obtain ⟨c, hc, hs⟩ := hs
        cases hs
        refine ⟨_, hc, .inl ?_⟩
        rw [List.cons_append, ← hdrop, List.takeWhile_append_dropWhile]
      · cases hs
    · next a b c e rest hne =>
      simp only [Option.bind_eq_bind, Option.bind_eq_some_iff] at hs
      obtain ⟨x, hx, hs⟩ := hs
      cases hs
      exact ⟨_, hx, .inr ⟨rfl, rfl⟩⟩
    · cases hs
  · rintro ⟨digits, hd, rfl | ⟨hl, rfl⟩⟩
    -- a digit is no brace, so the search for the closing brace stops at the right one
    · have hmem := not_mem_of_namedChar? (c := '}') hd rfl
      have hpos : ∀ c ∈ digits, decide (c ≠ '}') = true := by
        intro c hc
        exact decide_eq_true fun h => hmem (h ▸ hc)
      have htake : (digits ++ '}' :: r).takeWhile (· ≠ '}') = digits :=
        Text.takeWhile_append hpos rfl
      have hdrop : (digits ++ '}' :: r).dropWhile (· ≠ '}') = '}' :: r :=
        Text.dropWhile_append hpos rfl
      rw [List.cons_append, codePoint?]
      split
      · next after hafter =>
        cases hdrop.symm.trans hafter
        rw [htake, hd]
        rfl
      · next hne => exact absurd hdrop (hne _)
    · have hne := not_mem_of_namedChar? (c := '{') hd rfl
      match digits, hl with
      | [a, b, c, e], _ =>
        rw [show [a, b, c, e] ++ r = a :: b :: c :: e :: r from rfl, codePoint?]
        · rw [hd]
          rfl
        · rintro rfl
          simp at hne

/-! ## Escapes -/

theorem exists_eq_append_of_not_mem {s t r r' : List Char} (h : s ++ q :: r = t ++ r')
    (hq : q ∉ t) : ∃ c, s = t ++ c ∧ r' = c ++ q :: r := by
  rcases List.append_eq_append_iff.1 h with ⟨a, rfl, ha⟩ | h
  · cases a with
    | nil => exact ⟨[], by simp, by simpa using ha.symm⟩
    | cons c cs =>
      cases ha
      simp at hq
  · exact h

theorem codePoint?_append {s : List Char} (hq : isQuote q) :
    (codePoint? (s ++ q :: r)).map Parsed.pair = some (d, r') ↔
      ∃ s', (codePoint? s).map Parsed.pair = some (d, s') ∧ r' = s' ++ q :: r := by
  have hhex := hexDigit?_of_isQuote hq
  have hquote : q ≠ '{' ∧ q ≠ '}' := by
    constructor <;> rintro rfl <;> exact absurd hq (by decide)
  -- in both directions the digits decide, and they lie before the quote
  simp only [codePoint?_iff]
  constructor
  · rintro ⟨digits, hd, hs⟩
    have hmem := not_mem_of_namedChar? hd hhex
    rcases hs with hs | ⟨hl, hs⟩
    · obtain ⟨c, rfl, rfl⟩ := exists_eq_append_of_not_mem (t := '{' :: digits ++ ['}'])
        (by simpa using hs) (by simp [hmem, hquote])
      exact ⟨c, ⟨digits, hd, .inl (by simp)⟩, rfl⟩
    · obtain ⟨c, rfl, rfl⟩ := exists_eq_append_of_not_mem hs hmem
      exact ⟨c, ⟨digits, hd, .inr ⟨hl, rfl⟩⟩, rfl⟩
  · rintro ⟨s', ⟨digits, hd, rfl | ⟨hl, rfl⟩⟩, rfl⟩
    · exact ⟨digits, hd, .inl (by simp)⟩
    · exact ⟨digits, hd, .inr ⟨hl, by simp⟩⟩

theorem unescape_cons {s : List Char} : (unescape (c :: s)).map Parsed.pair =
    some (((if c = 'u' then codePoint? s else none).map Parsed.pair).getD (escaped c, s)) := by
  rw [unescape]
  split
  · next p hp => rw [hp]; rfl
  · next hp => rw [hp]; rfl

/-- What an escape denotes does not depend on the text behind the closing quote. -/
theorem unescape_append {u : List Char} (hq : isQuote q)
    (h : (unescape u).map Parsed.pair = some (d, u')) :
    (unescape (u ++ q :: r)).map Parsed.pair = some (d, u' ++ q :: r) := by
  cases u with
  | nil => cases h
  | cons c s =>
    rw [List.cons_append, unescape_cons]
    rw [unescape_cons, Option.some.injEq] at h
    split
    -- only a code looks further than one character
    · next hc =>
      rw [if_pos hc] at h
      cases hs : (codePoint? s).map Parsed.pair with
      | none =>
        have hnone : (codePoint? (s ++ q :: r)).map Parsed.pair = none := by
          rw [Option.eq_none_iff_forall_ne_some]
          rintro ⟨d', r'⟩ hsome
          obtain ⟨s', hs', -⟩ := (codePoint?_append hq).1 hsome
          cases hs.symm.trans hs'
        rw [hs] at h
        cases h
        rw [hnone]
        rfl
      | some x =>
        rw [hs] at h
        cases h
        rw [(codePoint?_append hq).2 ⟨u', hs, rfl⟩]
        rfl
    · next hc =>
      rw [if_neg hc] at h
      cases h
      rfl

theorem isSome_unescape {u : List Char} (h : u ≠ []) : ∃ d u', (unescape u).map Parsed.pair =
    some (d, u') := by
  cases u with
  | nil => exact absurd rfl h
  | cons c s => exact ⟨_, _, unescape_cons⟩

theorem unescape_cases {u : List Char} (h : (unescape u).map Parsed.pair = some (d, u')) :
    (∃ c, u = c :: u') ∨ ∃ digits, namedChar? digits = some d ∧
      (u = 'u' :: '{' :: digits ++ '}' :: u' ∨ u = 'u' :: digits ++ u') := by
  cases u with
  | nil => cases h
  | cons c s =>
    rw [unescape_cons, Option.some.injEq] at h
    -- a letter that names no character stands for itself
    cases hs : (if c = 'u' then codePoint? s else none).map Parsed.pair with
    | none =>
      rw [hs] at h
      cases h
      exact .inl ⟨c, rfl⟩
    | some x =>
      rw [hs] at h
      cases h
      split at hs
      · next hc =>
        subst hc
        obtain ⟨digits, hd, rfl | ⟨-, rfl⟩⟩ := codePoint?_iff.1 hs
        · exact .inr ⟨digits, hd, .inl rfl⟩
        · exact .inr ⟨digits, hd, .inr rfl⟩
      · cases hs

theorem eq_append_of_unescape {u : List Char} (h : (unescape u).map Parsed.pair = some (d, u')) :
    ∃ p, p ≠ [] ∧ u = p ++ u' := by
  rcases unescape_cases h with ⟨c, rfl⟩ | ⟨digits, -, rfl | rfl⟩
  · exact ⟨[c], by simp, rfl⟩
  · exact ⟨'u' :: '{' :: digits ++ ['}'], by simp, by simp⟩
  · exact ⟨'u' :: digits, by simp, rfl⟩

/-! ## Bodies -/

theorem readRest?_sound {s : List Char} (hq : isQuote quote)
    (h : (readRest? quote s).map Parsed.pair = some (v, r)) :
    ∃ u, LiteralBody quote u v ∧ s = u ++ quote :: r := by
  -- `v` is general, since the rest of the body has a value of its own
  fun_induction readRest? quote s generalizing v with
  | case1 => cases h
  | case2 rest => cases h; exact ⟨[], .nil, rfl⟩
  | case3 | case5 => cases h
  | case4 rest d rest' hlt hescape hne ih =>
    simp only [Option.bind_eq_bind, Option.map_bind, Option.bind_eq_some_iff] at h
    obtain ⟨⟨v, r, hr⟩, hp, h⟩ := h
    simp at h
    obtain ⟨rfl, rfl⟩ := h
    obtain ⟨u', hu', rfl⟩ := ih (Parsed.map_pair_some.2 ⟨_, hp⟩)
    have hlong := Parsed.map_pair_some.2 ⟨_, hescape⟩
    obtain ⟨front, hfront, rfl⟩ := eq_append_of_unescape hlong
    -- the escape denotes the same without the text behind the quote
    obtain ⟨d', u'', hshort⟩ := isSome_unescape (u := front ++ u') (by simp [hfront])
    have hsame := unescape_append (r := r) hq hshort
    rw [List.append_assoc, hlong, Option.some.injEq, Prod.mk.injEq] at hsame
    obtain ⟨rfl, hrest⟩ := hsame
    cases List.append_cancel_right hrest
    exact ⟨'\\' :: (front ++ u'), .escape hshort hu', by simp⟩
  | case6 c rest hne hescape hline ih =>
    simp only [Option.bind_eq_bind, Option.map_bind, Option.bind_eq_some_iff] at h
    obtain ⟨⟨v, r, hr⟩, hp, h⟩ := h
    simp at h
    obtain ⟨rfl, rfl⟩ := h
    obtain ⟨u', hu', rfl⟩ := ih (Parsed.map_pair_some.2 ⟨_, hp⟩)
    exact ⟨c :: u', .plain hne hescape hline hu', rfl⟩

theorem readRest?_complete (hq : isQuote quote) (h : LiteralBody quote u v) :
    (readRest? quote (u ++ quote :: r)).map Parsed.pair = some (v, r) := by
  induction h with
  | nil => rw [List.nil_append, readRest?, if_pos rfl]; rfl
  | @plain c u v hne hescape hline _ ih =>
    obtain ⟨h, ih⟩ := Parsed.map_pair_some.1 ih
    rw [List.cons_append, readRest?, if_neg hne, if_neg hescape, if_neg hline, ih]
    rfl
  | @escape u c u' v hu _ ih =>
    obtain ⟨h, ih⟩ := Parsed.map_pair_some.1 ih
    obtain ⟨h', hu⟩ := Parsed.map_pair_some.1 (unescape_append (r := r) hq hu)
    have hne : '\\' ≠ quote := by rintro rfl; exact absurd hq (by decide)
    rw [List.cons_append, readRest?, if_neg hne, if_pos rfl]
    simp only [hu, ih]
    rfl

/-- Reading finds the closing quote and decodes the text before it. -/
theorem readRest?_iff {s : List Char} (hq : isQuote quote) :
    (readRest? quote s).map Parsed.pair = some (v, r) ↔
      ∃ u, LiteralBody quote u v ∧ s = u ++ quote :: r := by
  constructor
  · exact readRest?_sound hq
  · rintro ⟨u, hu, rfl⟩
    exact readRest?_complete hq hu

/-! ## Writing -/

theorem namedChar?_toDigits (h : isControl c) : namedChar? (Nat.toDigits 16 c.toNat) = some c := by
  -- there are few control characters, so that all of them can be tried
  have hsmall : ∀ n < 0xA0, namedChar? (Nat.toDigits 16 n) = some (Char.ofNat n) := by
    decide +kernel
  rw [hsmall c.toNat (by simp [isControl] at h; omega), Char.ofNat_toNat]

theorem escaped_quote (hq : isQuote q) : escaped q = q := by
  rcases eq_of_isQuote hq with rfl | rfl <;> rfl

theorem body_escaped (hc : escaped c = d) (hu : c ≠ 'u') (h : LiteralBody quote u v) :
    LiteralBody quote (['\\', c] ++ u) (d :: v) := by
  refine LiteralBody.escape (u := c :: u) ?_ h
  rw [unescape_cons, if_neg hu, hc]
  rfl

theorem body_code (hd : namedChar? digits = some d) (h : LiteralBody quote u v) :
    LiteralBody quote (['\\', 'u', '{'] ++ digits ++ ['}'] ++ u) (d :: v) := by
  have hcode : (codePoint? ('{' :: digits ++ '}' :: u)).map Parsed.pair = some (d, u) :=
    codePoint?_iff.2 ⟨_, hd, .inl rfl⟩
  rw [show ['\\', 'u', '{'] ++ digits ++ ['}'] ++ u = '\\' :: 'u' :: ('{' :: digits ++ '}' :: u) by simp]
  refine .escape ?_ h
  rw [unescape_cons, if_pos rfl, hcode]
  rfl

theorem body_fourDigits (hd : namedChar? [a, b, c, d] = some e) (h : LiteralBody quote u v) :
    LiteralBody quote (['\\', 'u', a, b, c, d] ++ u) (e :: v) := by
  have hcode : (codePoint? ([a, b, c, d] ++ u)).map Parsed.pair = some (e, u) :=
    codePoint?_iff.2 ⟨_, hd, .inr ⟨rfl, rfl⟩⟩
  refine LiteralBody.escape (u := 'u' :: ([a, b, c, d] ++ u)) ?_ h
  rw [unescape_cons, if_pos rfl, hcode]
  rfl

theorem body_encodeChar (hq : isQuote quote) (h : LiteralBody quote u v) :
    LiteralBody quote (encodeChar quote c ++ u) (c :: v) := by
  -- one case for each way to write a character
  unfold encodeChar
  split
  · next hc => subst hc; exact body_escaped rfl (by decide) h
  split
  · next hc => subst hc; exact body_escaped rfl (by decide) h
  split
  · next hc => subst hc; exact body_escaped rfl (by decide) h
  split
  · next hc => subst hc; exact body_escaped rfl (by decide) h
  split
  · next hc =>
    subst hc
    exact body_escaped (escaped_quote hq) (by rintro rfl; exact absurd hq (by decide)) h
  split
  · next hc => exact body_code (namedChar?_toDigits hc) h
  · next hslash hline _ _ hquote _ => exact .plain hquote hslash hline h

theorem body_flatMap_encodeChar (hq : isQuote quote) :
    LiteralBody quote (v.flatMap (encodeChar quote)) v := by
  induction v with
  | nil => exact .nil
  | cons c cs ih => exact body_encodeChar hq ih

theorem isQuote_quoteFor (hp : isQuote preferred) : isQuote (quoteFor preferred v) := by
  unfold quoteFor
  split
  · unfold alternate
    split <;> rfl
  · exact hp

theorem literalText_encode (hp : isQuote preferred) :
    Grammar.LiteralText (encode preferred v) v :=
  .quoted (isQuote_quoteFor hp) (body_flatMap_encodeChar (isQuote_quoteFor hp))

end ModelTypes.Literal
