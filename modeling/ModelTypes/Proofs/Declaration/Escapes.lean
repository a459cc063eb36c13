import ModelTypes.Proofs.Declaration.Quoting
import ModelTypes.Proofs.Text.Units

/-!
# What a literal denotes

Scripts give the literals of a declaration file a value, a sequence of code units, with more escapes
than the reader of declaration files knows. `Piece` is what the text between the quotes consists of.
The reader finds the value of a literal exactly if the literal has no `\xHH`, no surrogate written
as an escape and no line that goes on behind a backslash; what is printed has none of them.
-/

namespace ModelTypes.Literal

open Text (hexDigit? hexNumber? codeUnits IsLeading IsTrailing IsSurrogate)

/-! ## Pieces -/

inductive Piece where
  | plain (c : Char)
  | short (c : Char)
  /-- A backslash and a character that still stands for itself. -/
  | identity (c : Char)
  /-- `\xHH` -/
  | byte (digits : List Char)
  /-- `\uHHHH` -/
  | unit (digits : List Char)
  /-- `\u` and digits in braces. -/
  | code (digits : List Char)
  /-- A backslash and the end of a line, which stand for nothing. -/
  | continuation (lineEnd : List Char)

def shortEscapes : List (Char × Nat) :=
  [('n', 0x0A), ('r', 0x0D), ('t', 0x09), ('b', 0x08), ('f', 0x0C), ('v', 0x0B), ('0', 0x00)]

def lineEnds : List (List Char) :=
  [['\n'], ['\r'], ['\r', '\n'], ['\u2028'], ['\u2029']]

/-- The characters that have another meaning behind a backslash, or none. -/
def reserved : List Char :=
  "bfnrtvux0123456789\n\r\u2028\u2029".toList

def number (digits : List Char) : Nat :=
  (hexNumber? 0 digits).getD 0

def AllHex (digits : List Char) : Prop :=
  ∀ c ∈ digits, (hexDigit? c).isSome

namespace Piece

def text : Piece → List Char
  | plain c => [c]
  | short c | identity c => ['\\', c]
  | byte digits => '\\' :: 'x' :: digits
  | unit digits => '\\' :: 'u' :: digits
  | code digits => '\\' :: 'u' :: '{' :: digits ++ ['}']
  | continuation lineEnd => '\\' :: lineEnd

def units : Piece → List Nat
  | plain c | identity c => codeUnits c.toNat
  | short c => [(shortEscapes.lookup c).getD 0]
  | byte digits | unit digits => [number digits]
  | code digits => codeUnits (number digits)
  | continuation _ => []

/-- Whether a piece can stand between two `quote`s with the text `next` behind it. -/
def Valid (quote : Char) (next : List Char) : Piece → Prop
  | plain c => c ≠ quote ∧ c ≠ '\\' ∧ c ≠ '\n' ∧ c ≠ '\r'
  | short c => c ∈ shortEscapes.map Prod.fst ∧ (c = '0' → next.head?.any Char.isDigit = false)
  | identity c => c ∉ reserved
  | byte digits => digits.length = 2 ∧ AllHex digits
  | unit digits => digits.length = 4 ∧ AllHex digits
  | code digits => digits ≠ [] ∧ AllHex digits ∧ number digits < 0x110000
  | continuation lineEnd => lineEnd ∈ lineEnds ∧ (lineEnd = ['\r'] → next.head? ≠ some '\n')

/-- The pieces that the reader takes for what they are. -/
def Supported : Piece → Prop
  | plain _ | short _ | identity _ => True
  | byte _ | continuation _ => False
  | unit digits | code digits => ¬ IsSurrogate (number digits)

instance : DecidablePred Supported
  | plain _ | short _ | identity _ => .isTrue trivial
  | byte _ | continuation _ => .isFalse id
  | unit digits | code digits => inferInstanceAs (Decidable (¬ IsSurrogate (number digits)))

/-- What the reader makes of a piece. A line feed behind a carriage return is an error. -/
def read : Piece → Option (List Char)
  | plain c | identity c => some [c]
  | short c => some [Char.ofNat ((shortEscapes.lookup c).getD 0)]
  | byte digits => some ('x' :: digits)
  | unit digits =>
    if IsSurrogate (number digits) then some ('u' :: digits) else some [Char.ofNat (number digits)]
  | code digits =>
    if IsSurrogate (number digits) then some ('u' :: '{' :: digits ++ ['}'])
    else some [Char.ofNat (number digits)]
  | continuation lineEnd => if lineEnd = ['\r', '\n'] then none else some lineEnd

end Piece

def bodyText (ps : List Piece) : List Char :=
  ps.flatMap Piece.text

def bodyUnits (ps : List Piece) : List Nat :=
  ps.flatMap Piece.units

def ValidBody (quote : Char) : List Piece → Prop
  | [] => True
  | p :: ps => p.Valid quote (bodyText ps) ∧ ValidBody quote ps

def readBody : List Piece → Option (List Char)
  | [] => some []
  | p :: ps => p.read.bind fun w => (readBody ps).map (w ++ ·)

variable {quote c d : Char} {s s' u v w r digits : List Char} {p : Piece} {ps : List Piece}

/-! ## Reading a piece -/

theorem readRest?_plain (hq : c ≠ quote) (hslash : c ≠ '\\') (hline : c ≠ '\n') :
    (readRest? quote (c :: s)).map Parsed.pair =
      ((readRest? quote s).map Parsed.pair).map (Prod.map (c :: ·) id) := by
  rw [readRest?, if_neg hq, if_neg hslash, if_neg hline]
  cases readRest? quote s <;> rfl

theorem ne_quote (hq : isQuote quote) (hc : isQuote c = false) : c ≠ quote := by
  rintro rfl
  rw [hq] at hc
  cases hc

theorem readRest?_escape (hq : isQuote quote) (h : (unescape s).map Parsed.pair = some (d, s')) :
    (readRest? quote ('\\' :: s)).map Parsed.pair =
      ((readRest? quote s').map Parsed.pair).map (Prod.map (d :: ·) id) := by
  obtain ⟨hlt, hs⟩ := Parsed.map_pair_some.1 h
  rw [readRest?, if_neg (ne_quote hq rfl), if_pos rfl, hs]
  dsimp only
  cases readRest? quote s' <;> rfl

theorem unescape_of_ne (hc : c ≠ 'u') :
    (unescape (c :: s)).map Parsed.pair = some (escaped c, s) := by
  rw [unescape_cons, if_neg hc]
  rfl

theorem ne_of_hexDigit? (hc : (hexDigit? c).isSome) (hd : hexDigit? d = none) : c ≠ d := by
  rintro rfl
  simp [hd] at hc

theorem allHex_of_all (h : digits.all fun c => (hexDigit? c).isSome) : AllHex digits :=
  fun c hc => List.all_eq_true.1 h c hc

theorem readRest?_digits (hq : isQuote quote) (h : AllHex digits) :
    (readRest? quote (digits ++ s)).map Parsed.pair =
      ((readRest? quote s).map Parsed.pair).map (Prod.map (digits ++ ·) id) := by
  induction digits with
  | nil =>
    rw [List.nil_append]
    cases readRest? quote s <;> rfl
  | cons c cs ih =>
    obtain ⟨hc, hcs⟩ := List.forall_mem_cons.1 h
    rw [List.cons_append, readRest?_plain (ne_of_hexDigit? hc (hexDigit?_of_isQuote hq))
      (ne_of_hexDigit? hc rfl) (ne_of_hexDigit? hc rfl), ih hcs, Option.map_map]
    rfl

theorem hexNumber?_of_allHex (h : AllHex digits) (n : Nat) :
    (hexNumber? n digits).isSome := by
  induction digits generalizing n with
  | nil => rfl
  | cons c cs ih =>
    obtain ⟨hc, hcs⟩ := List.forall_mem_cons.1 h
    obtain ⟨m, hm⟩ := Option.isSome_iff_exists.1 hc
    simpa [hexNumber?, hm] using ih hcs _

theorem namedChar?_eq (hne : digits ≠ []) (h : AllHex digits) :
    namedChar? digits = charOfCode? (number digits) := by
  obtain ⟨n, hn⟩ := Option.isSome_iff_exists.1 (hexNumber?_of_allHex h 0)
  cases digits with
  | nil => exact absurd rfl hne
  | cons c cs => simp [namedChar?, number, hn]

theorem isValidChar_iff : n.isValidChar ↔ ¬ IsSurrogate n ∧ n < 0x110000 := by
  unfold Nat.isValidChar IsSurrogate
  omega

theorem charOfCode?_of_surrogate (h : IsSurrogate n) : charOfCode? n = none :=
  if_neg fun hvalid => (isValidChar_iff.1 hvalid).1 h

theorem charOfCode?_of_not_surrogate (h : ¬ IsSurrogate n) (hn : n < 0x110000) :
    charOfCode? n = some (Char.ofNat n) :=
  if_pos (isValidChar_iff.2 ⟨h, hn⟩)

theorem number_lt (hl : digits.length = 4) (h : AllHex digits) : number digits < 0x10000 := by
  obtain ⟨n, hn⟩ := Option.isSome_iff_exists.1 (hexNumber?_of_allHex h 0)
  simpa [number, hn] using hexNumber?_lt hl hn

/-! ### Codes -/

theorem not_mem_of_allHex (h : AllHex digits) (hc : hexDigit? c = none) : c ∉ digits := by
  intro hmem
  simpa [hc] using h c hmem

theorem unescape_u (h : (codePoint? s).map Parsed.pair = some x) :
    (unescape ('u' :: s)).map Parsed.pair = some x := by
  rw [unescape_cons, if_pos rfl, h]
  rfl

theorem unescape_u_of_none (h : (codePoint? s).map Parsed.pair = none) :
    (unescape ('u' :: s)).map Parsed.pair = some ('u', s) := by
  rw [unescape_cons, if_pos rfl, h]
  rfl

theorem codePoint?_unit_surrogate (hl : digits.length = 4) (h : AllHex digits)
    (hn : IsSurrogate (number digits)) : (codePoint? (digits ++ s)).map Parsed.pair = none := by
  rw [Option.eq_none_iff_forall_ne_some]
  rintro ⟨d, r⟩ hd
  have hne : digits ≠ [] := by rintro rfl; cases hl
  obtain ⟨digits', hd', hs | ⟨hl', hs⟩⟩ := codePoint?_iff.1 hd
  · -- the first digit would be a brace
    obtain ⟨c, cs, rfl⟩ := List.exists_cons_of_ne_nil hne
    simp only [List.cons_append, List.cons.injEq] at hs
    obtain ⟨rfl, -⟩ := hs
    exact not_mem_of_allHex h rfl List.mem_cons_self
  · obtain ⟨rfl, -⟩ := List.append_inj hs (hl.trans hl'.symm)
    rw [namedChar?_eq hne h, charOfCode?_of_surrogate hn] at hd'
    cases hd'

theorem codePoint?_code_surrogate (hne : digits ≠ []) (h : AllHex digits)
    (hn : IsSurrogate (number digits)) :
    (codePoint? ('{' :: digits ++ '}' :: s)).map Parsed.pair = none := by
  rw [Option.eq_none_iff_forall_ne_some]
  rintro ⟨d, r⟩ hd
  obtain ⟨digits', hd', hs | ⟨hl', hs⟩⟩ := codePoint?_iff.1 hd
  · simp only [List.cons_append, List.cons.injEq, true_and] at hs
    -- both rows of digits end before the first brace
    have htake : ∀ {ds t : List Char}, '}' ∉ ds → (ds ++ '}' :: t).takeWhile (· ≠ '}') = ds :=
      fun hmem => Text.takeWhile_append (fun c hc => decide_eq_true fun he => hmem (he ▸ hc)) rfl
    obtain rfl : digits = digits' := by
      rw [← htake (t := s) (not_mem_of_allHex h rfl), hs, htake (not_mem_of_namedChar? hd' rfl)]
    rw [namedChar?_eq hne h, charOfCode?_of_surrogate hn] at hd'
    cases hd'
  · -- a brace is none of four digits
    have hbrace := not_mem_of_namedChar? (c := '{') hd' rfl
    cases digits' with
    | nil => cases hl'
    | cons c cs =>
      simp only [List.cons_append, List.cons.injEq] at hs
      exact hbrace (hs.1 ▸ List.mem_cons_self ..)

/-! ### Every piece -/

theorem readRest?_u (hq : isQuote quote) (h : (codePoint? s).map Parsed.pair = none) :
    (readRest? quote ('\\' :: 'u' :: s)).map Parsed.pair =
      ((readRest? quote s).map Parsed.pair).map (Prod.map ('u' :: ·) id) :=
  readRest?_escape hq (unescape_u_of_none h)

theorem readRest?_unit (hq : isQuote quote) (hl : digits.length = 4) (h : AllHex digits) :
    (readRest? quote ('\\' :: 'u' :: digits ++ s)).map Parsed.pair =
      (Piece.unit digits).read.bind fun w =>
        ((readRest? quote s).map Parsed.pair).map (Prod.map (w ++ ·) id) := by
  have hne : digits ≠ [] := by rintro rfl; cases hl
  rw [Piece.read]
  split
  · next hn =>
    rw [List.cons_append, List.cons_append, readRest?_u hq (codePoint?_unit_surrogate hl h hn),
      readRest?_digits hq h, Option.map_map]
    rfl
  · next hn =>
    have hlt := number_lt hl h
    have hchar : namedChar? digits = some (Char.ofNat (number digits)) := by
      rw [namedChar?_eq hne h, charOfCode?_of_not_surrogate hn (by omega)]
    exact readRest?_escape hq (unescape_u (codePoint?_iff.2 ⟨_, hchar, .inr ⟨hl, rfl⟩⟩))

theorem readRest?_code (hq : isQuote quote) (hne : digits ≠ []) (h : AllHex digits)
    (hlt : number digits < 0x110000) :
    (readRest? quote ('\\' :: 'u' :: '{' :: digits ++ '}' :: s)).map Parsed.pair =
      (Piece.code digits).read.bind fun w =>
        ((readRest? quote s).map Parsed.pair).map (Prod.map (w ++ ·) id) := by
  rw [Piece.read]
  split
  · next hn =>
    -- the braces and the digits stand for themselves
    rw [List.cons_append, List.cons_append, readRest?_u hq (codePoint?_code_surrogate hne h hn),
      List.cons_append, readRest?_plain (ne_quote hq rfl) (by decide) (by decide),
      readRest?_digits hq h, readRest?_plain (ne_quote hq rfl) (by decide) (by decide),
      Option.map_map, Option.map_map, Option.map_map]
    simp [Function.comp_def, Prod.map]
  · next hn =>
    have hchar : namedChar? digits = some (Char.ofNat (number digits)) := by
      rw [namedChar?_eq hne h, charOfCode?_of_not_surrogate hn hlt]
    exact readRest?_escape hq (unescape_u (codePoint?_iff.2 ⟨_, hchar, .inl rfl⟩))

theorem readRest?_continuation (hq : isQuote quote) (h : lineEnd ∈ lineEnds) :
    (readRest? quote ('\\' :: lineEnd ++ s)).map Parsed.pair =
      (Piece.continuation lineEnd).read.bind fun w =>
        ((readRest? quote s).map Parsed.pair).map (Prod.map (w ++ ·) id) := by
  have hone : ∀ {c}, c ≠ 'u' → escaped c = c → (readRest? quote ('\\' :: c :: s)).map Parsed.pair =
      ((readRest? quote s).map Parsed.pair).map (Prod.map (c :: ·) id) := by
    intro c hu hc
    rw [readRest?_escape hq (unescape_of_ne hu), hc]
  simp only [lineEnds, List.mem_cons, List.not_mem_nil, or_false] at h
  rcases h with rfl | rfl | rfl | rfl | rfl
  · exact hone (by decide) rfl
  · exact hone (by decide) rfl
  · -- the backslash takes the carriage return, and the line feed stands alone
    have hnone : readRest? quote ('\n' :: s) = none := by
      rw [readRest?, if_neg (ne_quote hq rfl), if_neg (by decide), if_pos rfl]
    rw [List.cons_append, List.cons_append, List.cons_append, List.nil_append,
      readRest?_escape hq (unescape_of_ne (by decide)), hnone]
    rfl
  · exact hone (by decide) rfl
  · exact hone (by decide) rfl

theorem short_cases (hc : c ∈ shortEscapes.map Prod.fst) :
    c = 'n' ∨ c = 'r' ∨ c = 't' ∨ c = 'b' ∨ c = 'f' ∨ c = 'v' ∨ c = '0' := by
  simpa [shortEscapes] using hc

theorem escaped_short (hc : c ∈ shortEscapes.map Prod.fst) :
    c ≠ 'u' ∧ escaped c = Char.ofNat ((shortEscapes.lookup c).getD 0) := by
  rcases short_cases hc with rfl | rfl | rfl | rfl | rfl | rfl | rfl <;> exact ⟨by decide, rfl⟩

theorem escaped_identity (hc : c ∉ reserved) : c ≠ 'u' ∧ escaped c = c := by
  have hne : ∀ {d}, d ∈ reserved → c ≠ d := fun hd he => hc (he ▸ hd)
  refine ⟨hne (by decide), ?_⟩
  unfold escaped
  split
  all_goals first | rfl | exact absurd rfl (hne (by decide))

theorem readRest?_piece (hq : isQuote quote) (h : p.Valid quote next) :
    (readRest? quote (p.text ++ s)).map Parsed.pair =
      p.read.bind fun w => ((readRest? quote s).map Parsed.pair).map (Prod.map (w ++ ·) id) := by
  cases p with
  | plain c => exact readRest?_plain h.1 h.2.1 h.2.2.1
  | short c =>
    obtain ⟨hu, hc⟩ := escaped_short h.1
    rw [Piece.read, ← hc]
    exact readRest?_escape hq (unescape_of_ne hu)
  | identity c =>
    obtain ⟨hu, hc⟩ := escaped_identity h
    have hread := readRest?_escape (s := c :: s) hq (unescape_of_ne hu)
    rw [hc] at hread
    exact hread
  | byte digits =>
    refine (readRest?_escape (s := 'x' :: (digits ++ s)) hq (unescape_of_ne (by decide))).trans ?_
    rw [readRest?_digits hq h.2, Option.map_map]
    rfl
  | unit digits => exact readRest?_unit hq h.1 h.2
  | code digits =>
    obtain ⟨hne, hhex, hlt⟩ := h
    rw [show (Piece.code digits).text ++ s = '\\' :: 'u' :: '{' :: digits ++ '}' :: s by
      simp [Piece.text]]
    exact readRest?_code hq hne hhex hlt
  | continuation lineEnd => exact readRest?_continuation hq h.1

theorem readRest?_body (hq : isQuote quote) (h : ValidBody quote ps) :
    (readRest? quote (bodyText ps ++ quote :: r)).map Parsed.pair = (readBody ps).map (·, r) := by
  induction ps with
  | nil =>
    rw [bodyText, List.flatMap_nil, List.nil_append, readRest?, if_pos rfl]
    rfl
  | cons p ps ih =>
    rw [bodyText, List.flatMap_cons, List.append_assoc, readRest?_piece hq h.1, ← bodyText, ih h.2,
      readBody]
    simp [Option.map_bind, Function.comp_def]

/-! ## The value of a literal -/

theorem codeUnits_short (hc : c ∈ shortEscapes.map Prod.fst) :
    (Piece.short c).units = codeUnits (Char.ofNat ((shortEscapes.lookup c).getD 0)).toNat := by
  rcases short_cases hc with rfl | rfl | rfl | rfl | rfl | rfl | rfl <;> rfl

theorem read_of_supported (h : p.Valid quote next) (hp : p.Supported) :
    ∃ c, p.read = some [c] ∧ p.units = codeUnits c.toNat := by
  cases p with
  | plain c | identity c => exact ⟨c, rfl, rfl⟩
  | short c => exact ⟨_, rfl, codeUnits_short h.1⟩
  | byte | continuation => exact hp.elim
  | unit digits =>
    have hlt := number_lt h.1 h.2
    refine ⟨_, if_neg hp, ?_⟩
    rw [Text.toNat_ofNat (isValidChar_iff.2 ⟨hp, by omega⟩), codeUnits, if_pos (by omega),
      Piece.units]
  | code digits =>
    refine ⟨_, if_neg hp, ?_⟩
    rw [Text.toNat_ofNat (isValidChar_iff.2 ⟨hp, h.2.2⟩), Piece.units]

/-- For the other pieces more characters are read than their units can stand for. -/
theorem countP_units_lt (h : p.Valid quote next) (hp : ¬ p.Supported) (hread : p.read = some w) :
    p.units.countP (¬ IsTrailing ·) < w.length := by
  have hone : ∀ n : Nat, [n].countP (¬ IsTrailing ·) ≤ 1 := fun n => List.countP_le_length
  cases p with
  | plain | short | identity => exact absurd trivial hp
  | byte digits =>
    cases hread
    -- the letter of the escape is read together with its digits
    have hle := hone (number digits)
    have hl := h.1
    simp only [Piece.units, List.length_cons]
    omega
  | unit digits =>
    rw [Piece.read, if_pos (not_not.1 hp)] at hread
    cases hread
    have hle := hone (number digits)
    have hl := h.1
    simp only [Piece.units, List.length_cons]
    omega
  | code digits =>
    have hn : IsSurrogate (number digits) := not_not.1 hp
    rw [Piece.read, if_pos hn] at hread
    cases hread
    have hsmall : codeUnits (number digits) = [number digits] := if_pos (by
      unfold IsSurrogate at hn
      omega)
    have hle := hone (number digits)
    rw [Piece.units, hsmall]
    simp only [List.length_cons, List.length_append]
    omega
  | continuation lineEnd =>
    have hne : lineEnd ≠ [] := by
      rintro rfl
      exact absurd h.1 (by decide)
    rw [Piece.read] at hread
    split at hread
    · cases hread
    · cases hread
      exact List.length_pos_iff.2 hne

theorem readBody_of_supported (h : ValidBody quote ps) (hps : ∀ p ∈ ps, p.Supported) :
    ∃ w, readBody ps = some w ∧ Text.units w = bodyUnits ps := by
  induction ps with
  | nil => exact ⟨[], rfl, rfl⟩
  | cons p ps ih =>
    obtain ⟨hp, hps⟩ := List.forall_mem_cons.1 hps
    obtain ⟨c, hread, hunits⟩ := read_of_supported h.1 hp
    obtain ⟨w, hw, hbody⟩ := ih h.2 hps
    refine ⟨c :: w, ?_, ?_⟩
    · rw [readBody, hread, hw]
      rfl
    · rw [Text.units_cons, hbody, ← hunits]
      rfl

/-- Each piece that is not supported makes what is read too long. -/
theorem countP_bodyUnits_le (h : ValidBody quote ps) (hread : readBody ps = some w) :
    (bodyUnits ps).countP (¬ IsTrailing ·) + ps.countP (¬ Piece.Supported ·) ≤ w.length := by
  induction ps generalizing w with
  | nil => simp [bodyUnits]
  | cons p ps ih =>
    simp only [readBody, Option.bind_eq_some_iff, Option.map_eq_some_iff] at hread
    obtain ⟨u, hu, v, hv, rfl⟩ := hread
    have hle := ih h.2 hv
    rw [bodyUnits, List.flatMap_cons, List.countP_append, ← bodyUnits, List.countP_cons,
      List.length_append]
    by_cases hp : p.Supported
    · obtain ⟨c, hc, hunits⟩ := read_of_supported h.1 hp
      obtain rfl := Option.some.inj (hu.symm.trans hc)
      rw [hunits, Text.countP_codeUnits, if_neg (by simpa using hp), List.length_singleton]
      omega
    · have hlt := countP_units_lt h.1 hp hu
      rw [if_pos (by simpa using hp)]
      omega

theorem readBody_eq_iff (h : ValidBody quote ps) (hv : Text.units v = bodyUnits ps) :
    readBody ps = some v ↔ ∀ p ∈ ps, p.Supported := by
  constructor
  · intro hread
    have hle := countP_bodyUnits_le h hread
    rw [← hv, Text.countP_units] at hle
    have hzero : ps.countP (¬ Piece.Supported ·) = 0 := by omega
    simpa [List.countP_eq_zero] using hzero
  · intro hps
    obtain ⟨w, hw, hunits⟩ := readBody_of_supported h hps
    rw [hw, Text.units_injective (hunits.trans hv.symm)]

/-! ## What is printed -/

theorem namedChar?_cases (h : namedChar? digits = some c) :
    digits ≠ [] ∧ AllHex digits ∧ number digits = c.toNat := by
  cases digits with
  | nil => cases h
  | cons d ds =>
    simp only [namedChar?, Option.bind_eq_some_iff] at h
    obtain ⟨n, hn, hc⟩ := h
    refine ⟨List.cons_ne_nil _ _, fun x hx => isSome_hexDigit? hn hx, ?_⟩
    unfold charOfCode? at hc
    split at hc
    · next hvalid =>
      cases hc
      rw [number, hn, Text.toNat_ofNat hvalid]
      rfl
    · cases hc

def pieceOf (quote c : Char) : Piece :=
  if c = '\\' then .identity c
  else if c = '\n' then .short 'n'
  else if c = '\r' then .short 'r'
  else if c = '\t' then .short 't'
  else if c = quote then .identity c
  else if isControl c then .code (Nat.toDigits 16 c.toNat)
  else .plain c

theorem pieceOf_spec (hq : isQuote quote) :
    (pieceOf quote c).text = encodeChar quote c ∧ (pieceOf quote c).units = codeUnits c.toNat ∧
      (∀ next, (pieceOf quote c).Valid quote next) ∧ (pieceOf quote c).Supported := by
  unfold pieceOf encodeChar
  -- in the order in which the encoder tells characters apart
  split
  · next hc => subst hc; exact ⟨rfl, rfl, fun _ => (by decide : '\\' ∉ reserved), trivial⟩
  split
  · next hc => subst hc; exact ⟨rfl, rfl, fun _ => ⟨by decide, nofun⟩, trivial⟩
  split
  · next hc => subst hc; exact ⟨rfl, rfl, fun _ => ⟨by decide, nofun⟩, trivial⟩
  split
  · next hc => subst hc; exact ⟨rfl, rfl, fun _ => ⟨by decide, nofun⟩, trivial⟩
  split
  · next hc =>
    subst hc
    have hmem : c ∉ reserved := by rcases eq_of_isQuote hq with rfl | rfl <;> decide
    exact ⟨rfl, rfl, fun _ => hmem, trivial⟩
  split
  · next hc =>
    obtain ⟨hne, hhex, hnumber⟩ := namedChar?_cases (namedChar?_toDigits hc)
    have hcode := Text.toNat_char c
    refine ⟨by simp [Piece.text], ?_, fun _ => ⟨hne, hhex, ?_⟩, ?_⟩
    · rw [Piece.units, hnumber]
    · omega
    · unfold Piece.Supported IsSurrogate
      omega
  · next hslash hline hreturn _ hquote _ =>
    exact ⟨rfl, rfl, fun _ => ⟨hquote, hslash, hline, hreturn⟩, trivial⟩

theorem bodyText_pieceOf (hq : isQuote quote) :
    bodyText (v.map (pieceOf quote)) = v.flatMap (encodeChar quote) := by
  induction v with
  | nil => rfl
  | cons c v ih =>
    rw [List.map_cons, bodyText, List.flatMap_cons, (pieceOf_spec hq).1, ← bodyText, ih,
      List.flatMap_cons]

theorem bodyUnits_pieceOf (hq : isQuote quote) :
    bodyUnits (v.map (pieceOf quote)) = Text.units v := by
  induction v with
  | nil => rfl
  | cons c v ih =>
    rw [List.map_cons, bodyUnits, List.flatMap_cons, (pieceOf_spec hq).2.1,
      ← bodyUnits, ih, Text.units_cons]

theorem validBody_pieceOf (hq : isQuote quote) : ValidBody quote (v.map (pieceOf quote)) := by
  induction v with
  | nil => trivial
  | cons c v ih => exact ⟨(pieceOf_spec hq).2.2.1 _, ih⟩

/-! ## Reading and printing -/

theorem literal?_quoted (hq : isQuote quote) :
    (Parser.literal? (quote :: s)).map (·.map Parsed.pair) = .ok (some (v, r)) ↔
      (readRest? quote s).map Parsed.pair = some (v, r) := by
  rw [Parser.literal?, if_pos hq]
  cases readRest? quote s with
  | none => simp
  | some p => simp

/-- A literal with a value is read as that value if and only if none of its pieces is a `\xHH`, a
surrogate written as an escape or a line that goes on. What is printed for the value is a literal
that denotes it and has only pieces that are read. -/
theorem read_value_iff_supported (hq : isQuote quote) (h : ValidBody quote ps)
    (hv : Text.units v = bodyUnits ps) (style : Style) (r : List Char) :
    ((Parser.literal? (quote :: bodyText ps ++ quote :: r)).map (·.map Parsed.pair) =
        .ok (some (v, r)) ↔ ∀ p ∈ ps, p.Supported) ∧
      ∃ quote' ps', isQuote quote' ∧ ValidBody quote' ps' ∧
        encode style.preferredQuote v = quote' :: bodyText ps' ++ [quote'] ∧
        bodyUnits ps' = Text.units v ∧ ∀ p ∈ ps', p.Supported := by
  constructor
  · rw [List.cons_append, literal?_quoted hq, readRest?_body hq h, ← readBody_eq_iff h hv]
    cases readBody ps <;> simp
  · have hq' : isQuote (quoteFor style.preferredQuote v) :=
      isQuote_quoteFor Style.isQuote_preferredQuote
    refine ⟨_, _, hq', validBody_pieceOf (v := v) hq', ?_, bodyUnits_pieceOf hq', ?_⟩
    · rw [bodyText_pieceOf hq']
      rfl
    · intro p hp
      obtain ⟨c, -, rfl⟩ := List.mem_map.1 hp
      exact (pieceOf_spec hq').2.2.2

def samplePieces : List Piece :=
  [.short 'n', .unit "00e9".toList, .code "1F600".toList, .identity '"', .short '0', .plain 'a']

theorem validBody_samplePieces : ValidBody '"' samplePieces :=
  ⟨⟨by decide, nofun⟩, ⟨rfl, allHex_of_all rfl⟩, ⟨nofun, allHex_of_all rfl, by decide⟩,
    (by decide : '"' ∉ reserved), ⟨by decide, fun _ => rfl⟩,
    ⟨by decide, by decide, by decide, by decide⟩, trivial⟩

theorem read_value_iff_supported_sample :
    isQuote '"' ∧ ValidBody '"' samplePieces ∧
      Text.units ['\n', 'é', '😀', '"', '\x00', 'a'] = bodyUnits samplePieces ∧
      (Parser.literal? ('"' :: bodyText samplePieces ++ ['"', ';'])).map (·.map Parsed.pair) =
        .ok (some (['\n', 'é', '😀', '"', '\x00', 'a'], [';'])) :=
  ⟨rfl, validBody_samplePieces, by decide,
    (read_value_iff_supported rfl validBody_samplePieces (by decide) {} [';']).1.2 (by decide)⟩

/-- A literal with the value `v` is read as `w`, which is another. -/
def Misread (ps : List Piece) (v w : List Char) : Prop :=
  ValidBody '"' ps ∧ Text.units v = bodyUnits ps ∧ v ≠ w ∧
    (Parser.literal? ('"' :: bodyText ps ++ ['"'])).map (·.map Parsed.pair) = .ok (some (w, []))

theorem misread (h : ValidBody '"' ps) (hv : Text.units v = bodyUnits ps) (hne : v ≠ w)
    (hread : readBody ps = some w) : Misread ps v w := by
  refine ⟨h, hv, hne, ?_⟩
  rw [List.cons_append, literal?_quoted rfl, readRest?_body rfl h, hread]
  rfl

/-- `A`, a smiling face and two letters on two lines. -/
theorem read_value_lost :
    Misread [.byte "41".toList] ['A'] "x41".toList ∧
      Misread [.unit "D83D".toList, .unit "DE00".toList] ['😀'] "uD83DuDE00".toList ∧
      Misread [.plain 'a', .continuation ['\n'], .plain 'b'] ['a', 'b'] ['a', '\n', 'b'] := by
  have hbyte : ValidBody '"' [.byte "41".toList] := ⟨⟨rfl, allHex_of_all rfl⟩, trivial⟩
  have hpair : ValidBody '"' [.unit "D83D".toList, .unit "DE00".toList] :=
    ⟨⟨rfl, allHex_of_all rfl⟩, ⟨rfl, allHex_of_all rfl⟩, trivial⟩
  have hline : ValidBody '"' [.plain 'a', .continuation ['\n'], .plain 'b'] :=
    ⟨⟨by decide, by decide, by decide, by decide⟩, ⟨by decide, nofun⟩,
      ⟨by decide, by decide, by decide, by decide⟩, trivial⟩
  exact ⟨misread hbyte rfl (by decide) rfl, misread hpair rfl (by decide) rfl,
    misread hline rfl (by decide) rfl⟩

end ModelTypes.Literal
