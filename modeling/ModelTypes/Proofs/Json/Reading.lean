import ModelTypes.Proofs.Declaration.Tokens
import ModelTypes.Proofs.Json.Grammar

/-!
# Reading JSON

What the grammar says a text spells is what is read from it, whatever follows the text; only behind
a number the text must not go on with a character that numbers are made of.
-/

namespace ModelTypes

namespace Json.Reader

open Grammar (Gap skipGap_append_eq NoGap)
open Text (hexNumber? codeUnits units IsLeading IsTrailing ofPair Decodes skipGap)

variable {s t u v ds digits : List Char}

/-! ## Numbers -/

def DigitEnd (s : List Char) : Prop :=
  s.head?.any Char.isDigit = false

def NumberEnd (s : List Char) : Prop :=
  ∀ c, s.head? = some c → ¬ c.isDigit ∧ c ≠ '.' ∧ c ≠ 'e' ∧ c ≠ 'E'

theorem NumberEnd.digitEnd (h : NumberEnd s) : DigitEnd s := by
  unfold DigitEnd
  cases s with
  | nil => rfl
  | cons c s => simpa using (h c rfl).1

theorem takeWhile_digits (hd : Digits ds) (hs : DigitEnd s) : (ds ++ s).takeWhile Char.isDigit = ds :=
  Text.takeWhile_append hd.2 hs

theorem dropWhile_digits (hd : Digits ds) (hs : DigitEnd s) : (ds ++ s).dropWhile Char.isDigit = s :=
  Text.dropWhile_append hd.2 hs

theorem head?_digits (hd : Digits ds) : ∃ c, (ds ++ s).head? = some c ∧ c.isDigit := by
  obtain ⟨c, cs, rfl⟩ := List.exists_cons_of_ne_nil hd.1
  exact ⟨c, rfl, hd.2 c List.mem_cons_self⟩

theorem whole_complete (hd : Whole ds) (hs : DigitEnd s) :
    (whole (ds ++ s)).map Parsed.pair = .ok (ds, s) := by
  unfold whole
  rw [takeWhile_digits hd.1 hs]
  dsimp only
  rw [if_neg hd.1.1, if_neg fun h => h.2 (hd.2 h.1)]
  simp [Parsed.upTo, dropWhile_digits hd.1 hs]

theorem fraction_complete (h : FractionText u fr) (hs : DigitEnd s) (hdot : s.head? ≠ some '.') :
    (fraction (u ++ s)).map Parsed.pair = .ok (fr, s) := by
  cases h with
  | none =>
    rw [List.nil_append]
    unfold fraction
    split
    · exact absurd rfl hdot
    · rfl
  | digits hd =>
    obtain ⟨c, hc, hdigit⟩ := head?_digits (s := s) hd
    rw [List.cons_append, fraction, if_pos (by rw [hc]; exact hdigit)]
    simp [Parsed.longer, Parsed.upTo, takeWhile_digits hd hs, dropWhile_digits hd hs]

theorem sign_complete (h : SignText u minus) (hd : Digits ds) :
    (sign (u ++ (ds ++ s))).pair = (minus, ds ++ s) := by
  cases h with
  | none =>
    obtain ⟨c, hc, hdigit⟩ := head?_digits (s := s) hd
    rw [List.nil_append]
    generalize ds ++ s = t at hc
    unfold sign
    -- a digit is no sign
    split
    · cases hc
      exact absurd hdigit (by decide)
    · cases hc
      exact absurd hdigit (by decide)
    · rfl
  | plus | minus => rfl

theorem exponent_complete (h : ExponentText u ex) (hs : NumberEnd s) :
    (exponent (u ++ s)).map Parsed.pair = .ok (ex, s) := by
  cases h with
  | none =>
    rw [List.nil_append]
    cases s with
    | nil => rfl
    | cons c s =>
      obtain ⟨-, -, he, hE⟩ := hs c rfl
      rw [exponent, if_neg (by rintro (rfl | rfl) <;> contradiction)]
      rfl
  | @digits e w minus ds he hw hd =>
    obtain ⟨h, hsign⟩ := Parsed.pair_eq_iff.1 (sign_complete (s := s) hw hd)
    obtain ⟨c, hc, hdigit⟩ := head?_digits (s := s) hd
    rw [List.cons_append, List.cons_append, List.append_assoc, exponent, if_pos he, hsign]
    dsimp only
    rw [if_pos (by rw [hc]; exact hdigit)]
    simp [Parsed.upTo, takeWhile_digits hd hs.digitEnd, dropWhile_digits hd hs.digitEnd]

theorem digitEnd_exponent (h : ExponentText u ex) (hs : NumberEnd s) :
    DigitEnd (u ++ s) ∧ (u ++ s).head? ≠ some '.' := by
  cases h with
  | none => exact ⟨hs.digitEnd, fun h => (hs _ h).2.1 rfl⟩
  | digits he =>
    rcases he with rfl | rfl
    · exact ⟨rfl, by simp⟩
    · exact ⟨rfl, by simp⟩

theorem digitEnd_fraction (h : FractionText u fr) (hs : DigitEnd s) : DigitEnd (u ++ s) := by
  cases h with
  | none => exact hs
  | digits => rfl

theorem numeral_complete (hd : Whole ds) (hu : FractionText u fr) (hv : ExponentText v ex)
    (hs : NumberEnd s) :
    (numeral n (ds ++ (u ++ (v ++ s)))).map Parsed.pair = .ok (⟨n, ds, fr, ex⟩, s) := by
  obtain ⟨hdigit, hdot⟩ := digitEnd_exponent hv hs
  obtain ⟨_, hwhole⟩ := Parsed.map_pair_ok.1 (whole_complete hd (digitEnd_fraction hu hdigit))
  obtain ⟨_, hfraction⟩ := Parsed.map_pair_ok.1 (fraction_complete hu hdigit hdot)
  obtain ⟨_, hexponent⟩ := Parsed.map_pair_ok.1 (exponent_complete hv hs)
  rw [numeral, hwhole]
  simp [bind, Except.bind, hfraction, hexponent]

/-! ## Strings -/

theorem codeUnit_complete (hl : digits.length = 4) (h : hexNumber? 0 digits = some n) :
    (codeUnit (digits ++ s)).map Parsed.pair = .ok (n, s) := by
  match digits, hl with
  | [a, b, c, d], _ =>
    rw [List.cons_append, List.cons_append, List.cons_append, List.cons_append, List.nil_append,
      codeUnit, h]
    rfl

def escapePair (p : Escape × Parsed Unit n) : Escape × List Char :=
  (p.1, p.2.rest)

theorem escape_short (h : (c, d) ∈ shortEscapes) :
    (escape (c :: s)).map escapePair = .ok (.char d, s) := by
  simp only [shortEscapes, List.mem_cons, Prod.mk.injEq, List.not_mem_nil, or_false] at h
  rcases h with ⟨rfl, rfl⟩ | ⟨rfl, rfl⟩ | ⟨rfl, rfl⟩ | ⟨rfl, rfl⟩ | ⟨rfl, rfl⟩ | ⟨rfl, rfl⟩ |
    ⟨rfl, rfl⟩ | ⟨rfl, rfl⟩ <;> rfl

section Units

variable (hl : digits.length = 4) (h : hexNumber? 0 digits = some n)
include hl h

theorem escape_unit : (escape ('u' :: digits ++ s)).map escapePair =
    .ok (if IsLeading n then escapePair (secondUnit n s)
      else if IsTrailing n then (.unpaired .malformed, s) else (.char (Char.ofNat n), s)) := by
  obtain ⟨_, hunit⟩ := Parsed.map_pair_ok.1 (codeUnit_complete (s := s) hl h)
  rw [List.cons_append, escape, hunit]
  dsimp only
  split
  · rfl
  split <;> rfl

theorem secondUnit_unit : escapePair (secondUnit first ('\\' :: 'u' :: digits ++ s)) =
    if IsTrailing n then (.char (Char.ofNat (ofPair first n)), s)
    else (.unpaired .malformed, '\\' :: 'u' :: digits ++ s) := by
  obtain ⟨_, hunit⟩ := Parsed.map_pair_ok.1 (codeUnit_complete (s := s) hl h)
  rw [List.cons_append, List.cons_append, secondUnit, hunit]
  dsimp only
  split <;> rfl

end Units

/-! ### Reading on -/

theorem string_plain (hquote : c ≠ '"') (hslash : c ≠ '\\') (hc : 0x20 ≤ c.toNat)
    (h : (string s).map Parsed.pair = .ok (o, t)) :
    (string (c :: s)).map Parsed.pair = .ok (o.map (c :: ·), t) := by
  obtain ⟨_, h⟩ := Parsed.map_pair_ok.1 h
  rw [string, if_neg hquote, if_neg hslash, if_neg (by omega), h]
  rfl

/-- What a string denotes with an escape in front; an unpaired surrogate leaves no value. -/
def Escape.before : Escape → Option (List Char) → Option (List Char)
  | .char d, o => o.map (d :: ·)
  | .unpaired _, _ => none

theorem string_escape (he : (escape s).map escapePair = .ok (e, u))
    (h : (string u).map Parsed.pair = .ok (o, t)) :
    (string ('\\' :: s)).map Parsed.pair = .ok (e.before o, t) := by
  obtain ⟨_, h⟩ := Parsed.map_pair_ok.1 h
  rw [string, if_neg (by decide), if_pos rfl]
  cases hs : escape s with
  | error => rw [hs] at he; cases he
  | ok x =>
    obtain ⟨e, ⟨⟨⟩, after, hlt⟩⟩ := x
    rw [hs] at he
    cases he
    dsimp only at h ⊢
    cases e <;> dsimp only <;> rw [h] <;> rfl

theorem secondUnit_other (hne : s ≠ []) (hslash : s ≠ ['\\']) (hunit : ∀ t, s ≠ '\\' :: 'u' :: t) :
    secondUnit first s = (.unpaired .malformed, .nothing () s) := by
  unfold secondUnit
  split
  · exact absurd rfl hne
  · exact absurd rfl hslash
  · exact absurd rfl (hunit _)
  · rfl

theorem secondUnit_unpaired (h : StringBody u us) (hus : ∀ m ∈ us.head?, ¬ IsTrailing m) :
    ∃ category, escapePair (secondUnit first (u ++ '"' :: s)) =
      (.unpaired category, u ++ '"' :: s) := by
  cases h with
  | nil => exact ⟨_, rfl⟩
  | plain _ hslash =>
    rw [secondUnit_other (by simp) (by simp) (by simp [hslash])]
    exact ⟨_, rfl⟩
  | short hc =>
    have hu : ∀ {c d}, (c, d) ∈ shortEscapes → c ≠ 'u' := by
      rintro c d h rfl
      simp [shortEscapes] at h
    rw [secondUnit_other (by simp) (by simp) (by simp [hu hc])]
    exact ⟨_, rfl⟩
  | unit hl hn =>
    rw [List.append_assoc, secondUnit_unit hl hn, if_neg (hus _ rfl)]
    exact ⟨_, rfl⟩

theorem body_trailing (h : StringBody u (m :: us)) (hm : IsTrailing m) :
    ∃ digits v, digits.length = 4 ∧ hexNumber? 0 digits = some m ∧ StringBody v us ∧
      u = '\\' :: 'u' :: digits ++ v := by
  generalize hus : m :: us = us' at h
  cases h with
  | nil => cases hus
  | plain | short =>
    have hhead := congrArg List.head? hus
    exact absurd hm (Text.head?_codeUnits (Option.mem_def.2 hhead.symm))
  | unit hl hn hu =>
    cases hus
    exact ⟨_, _, hl, hn, hu, rfl⟩

theorem string_complete {u s : List Char} {us : List Nat} (h : StringBody u us) :
    ∃ o, (string (u ++ '"' :: s)).map Parsed.pair = .ok (o, s) ∧ Decodes us o := by
  cases h with
  | nil =>
    refine ⟨some [], ?_, Text.decodes_units⟩
    rw [List.nil_append, string, if_pos rfl]
    rfl
  | plain hquote hslash hc hu =>
    obtain ⟨o, ho, hdec⟩ := string_complete (s := s) hu
    exact ⟨_, string_plain hquote hslash hc ho, hdec.cons⟩
  | short hc hu =>
    obtain ⟨o, ho, hdec⟩ := string_complete (s := s) hu
    exact ⟨_, string_escape (escape_short hc) ho, hdec.cons⟩
  | @unit digits n u us hl hn hu =>
    rw [List.append_assoc]
    obtain ⟨o, ho, hdec⟩ := string_complete (s := s) hu
    have hescape := escape_unit (s := u ++ '"' :: s) hl hn
    by_cases hlead : IsLeading n
    · rw [if_pos hlead] at hescape
      by_cases htrail : ∃ m us', us = m :: us' ∧ IsTrailing m
      · -- a pair, so that the text behind it is read next
        obtain ⟨m, us, rfl, htrail⟩ := htrail
        obtain ⟨digits', v, hl', hn', hv, rfl⟩ := body_trailing hu htrail
        obtain ⟨o, ho, hdec⟩ := string_complete (s := s) hv
        obtain ⟨hvalid, hpair⟩ := Text.codeUnits_pair hlead htrail
        rw [List.append_assoc _ v] at hescape ⊢
        rw [secondUnit_unit hl' hn', if_pos htrail] at hescape
        refine ⟨_, string_escape hescape ho, ?_⟩
        have hcons := hdec.cons (c := Char.ofNat (ofPair n m))
        rwa [Text.toNat_ofNat hvalid, hpair] at hcons
      · -- the unit behind is none, or no trailing one: the first is lost alone
        have hus : ∀ m ∈ us.head?, ¬ IsTrailing m := by
          rintro m hm hmtrail
          exact htrail ⟨m, us.tail, (List.cons_head?_tail hm).symm, hmtrail⟩
        obtain ⟨category, hsecond⟩ := secondUnit_unpaired (s := s) hu hus
        rw [hsecond] at hescape
        exact ⟨_, string_escape hescape ho, Text.decodes_leading hlead hus⟩
    · rw [if_neg hlead] at hescape
      by_cases htrail : IsTrailing n
      · rw [if_pos htrail] at hescape
        exact ⟨_, string_escape hescape ho, Text.decodes_trailing htrail⟩
      · rw [if_neg htrail] at hescape
        obtain ⟨hvalid, hone⟩ := Text.codeUnits_char hlead htrail (Literal.hexNumber?_lt hl hn)
        refine ⟨_, string_escape hescape ho, ?_⟩
        have hcons := hdec.cons (c := Char.ofNat n)
        rwa [Text.toNat_ofNat hvalid, hone] at hcons
termination_by u.length

/-! ## Values -/

theorem numberEnd_gap (hg : Gap g) (hs : NumberEnd s) : NumberEnd (g ++ s) := by
  cases g with
  | nil => exact hs
  | cons c g =>
    rintro c' ⟨⟩
    rcases Grammar.eq_of_isGap (hg c List.mem_cons_self) with rfl | rfl | rfl | rfl <;>
      decide

theorem numberEnd_sign (h : (c.isDigit || c == '.' || c == 'e' || c == 'E') = false) :
    NumberEnd (c :: s) := by
  rintro c' ⟨⟩
  simpa [and_assoc] using h

theorem stringText_complete (h : StringText u o) :
    ∃ b v, u = '"' :: b ∧ o = v.map String.ofList ∧
      (string (b ++ s)).map Parsed.pair = .ok (v, s) := by
  cases h with
  | @quoted b us v hb hv =>
    obtain ⟨v', hread, hv'⟩ := string_complete (s := s) hb
    obtain rfl := hv.eq hv'
    refine ⟨b ++ ['"'], v, rfl, rfl, ?_⟩
    rw [List.append_assoc]
    exact hread

theorem word_complete (expected : List Char) (found : Reading) :
    (word expected found (expected ++ s)).pair = (found, s) := by
  unfold word
  split
  · next rest hrest =>
    rw [dropFront?_append] at hrest
    cases hrest
    rfl
  · next hrest => rw [dropFront?_append] at hrest; cases hrest

theorem ne_of_isDigit {c d : Char} (h : c.isDigit) (hd : d.isDigit = false) : c ≠ d := by
  rintro rfl
  rw [hd] at h
  cases h

theorem number_complete (h : NumberText u n) (hs : NumberEnd s) :
    (value (u ++ s)).pair = (.number n, s) := by
  cases h with
  | @number ds u fr v ex negative hd hu hv =>
    have hnumeral := numeral_complete (n := negative) hd hu hv hs
    rw [List.append_assoc, List.append_assoc, List.append_assoc]
    cases negative with
    | true =>
      obtain ⟨_, hnumeral⟩ := Parsed.map_pair_ok.1 hnumeral
      rw [if_pos rfl, List.cons_append, List.nil_append, value, hnumeral]
      rfl
    | false =>
      obtain ⟨c, cs, rfl⟩ := List.exists_cons_of_ne_nil hd.1.1
      have hdigit := hd.1.2 c List.mem_cons_self
      rw [List.cons_append] at hnumeral ⊢
      obtain ⟨_, hnumeral⟩ := Parsed.map_pair_ok.1 hnumeral
      rw [if_neg (by decide), List.nil_append, value, if_pos hdigit, hnumeral]
      · rfl
      all_goals exact ne_of_isDigit hdigit rfl

theorem head_number (h : NumberText u n) :
    ∃ c w, u = c :: w ∧ Text.isGap c = false ∧ c ≠ ']' := by
  cases h with
  | @number ds u fr v ex negative hd =>
    cases negative with
    | true => exact ⟨_, _, rfl, rfl, by decide⟩
    | false =>
      obtain ⟨c, cs, rfl⟩ := List.exists_cons_of_ne_nil hd.1.1
      have hdigit := hd.1.2 c List.mem_cons_self
      refine ⟨c, _, rfl, ?_, ne_of_isDigit hdigit rfl⟩
      rw [Bool.eq_false_iff]
      intro hgap
      rcases Grammar.eq_of_isGap hgap with rfl | rfl | rfl | rfl <;> cases hdigit

theorem head_value (h : ValueText u r) : ∃ c w, u = c :: w ∧ Text.isGap c = false ∧ c ≠ ']' := by
  cases h with
  | null | true | false => exact ⟨_, _, rfl, rfl, by decide⟩
  | number h => exact head_number h
  | string h =>
    cases h
    exact ⟨_, _, rfl, rfl, by decide⟩
  | noItems | array | noMembers | object => exact ⟨_, _, rfl, rfl, by decide⟩

theorem head_items (h : ItemsText u rs) : ∃ c w, u = c :: w ∧ Text.isGap c = false ∧ c ≠ ']' := by
  cases h with
  | last h | more h =>
    obtain ⟨c, w, rfl, hc⟩ := head_value h
    exact ⟨_, _, rfl, hc⟩

theorem head_member (h : MemberText u m) : ∃ w, u = '"' :: w := by
  cases h with
  | member h =>
    cases h
    exact ⟨_, rfl⟩

theorem head_members (h : MembersText u ms) : ∃ w, u = '"' :: w := by
  cases h with
  | last h | more h =>
    obtain ⟨w, rfl⟩ := head_member h
    exact ⟨_, rfl⟩

theorem skipGap_sign (hg : Gap g) (hc : Text.isGap c = false) : skipGap (g ++ c :: s) = c :: s :=
  skipGap_append_eq hg hc

/-! ### One step of the readers -/

theorem value_noItems (h : skipGap s = ']' :: t) :
    (value ('[' :: s)).pair = (.array [] none, t) := by
  rw [value]
  simp only [h, List.head?_cons, if_true, List.tail_cons]
  rfl

theorem value_items (h : skipGap s = c :: u) (hc : c ≠ ']')
    (hread : (items (c :: u)).pair = ((rs, none), t)) :
    (value ('[' :: s)).pair = (.array rs none, t) := by
  rw [value]
  rw [← h] at hread
  obtain ⟨_, hread⟩ := Parsed.pair_eq_iff.1 hread
  dsimp only
  rw [if_neg (by simp [h, hc]), if_neg (by simp [h]), hread]
  rfl

theorem items_last (hread : (value s).pair = (r, t)) (h : skipGap t = ']' :: u) :
    (items s).pair = (([r], none), u) := by
  obtain ⟨_, hread⟩ := Parsed.pair_eq_iff.1 hread
  rw [items, hread]
  dsimp only
  split
  · next hnil => cases hnil.symm.trans h
  · next hcons =>
    cases hcons.symm.trans h
    rw [if_pos rfl]
    rfl

theorem items_more (hread : (value s).pair = (r, t)) (h : skipGap t = ',' :: u)
    (hothers : (items (skipGap u)).pair = ((rs, none), v)) :
    (items s).pair = ((r :: rs, none), v) := by
  obtain ⟨_, hread⟩ := Parsed.pair_eq_iff.1 hread
  obtain ⟨_, hothers⟩ := Parsed.pair_eq_iff.1 hothers
  rw [items, hread]
  dsimp only
  split
  · next hnil => cases hnil.symm.trans h
  · next hcons =>
    cases hcons.symm.trans h
    rw [if_neg (by decide), if_pos rfl, hothers]
    rfl

theorem value_noMembers (h : skipGap s = '}' :: t) :
    (value ('{' :: s)).pair = (.object [] none, t) := by
  rw [value]
  simp only [h, List.head?_cons, if_true, List.tail_cons]
  rfl

theorem value_members (h : skipGap s = c :: u) (hc : c ≠ '}')
    (hread : (members true (c :: u)).pair = ((ms, none), t)) :
    (value ('{' :: s)).pair = (.object ms none, t) := by
  rw [value]
  rw [← h] at hread
  obtain ⟨_, hread⟩ := Parsed.pair_eq_iff.1 hread
  dsimp only
  rw [if_neg (by simp [h, hc]), if_neg (by simp [h]), hread]
  rfl

theorem member_colon {o : Option (List Char)} (hkey : (string s).map Parsed.pair = .ok (o, t))
    (h : skipGap t = ':' :: u) (hread : (value (skipGap u)).pair = (r, v)) :
    (member s).map Parsed.pair = .ok (⟨o.map String.ofList, r⟩, v) := by
  obtain ⟨_, hkey⟩ := Parsed.map_pair_ok.1 hkey
  obtain ⟨_, hread⟩ := Parsed.pair_eq_iff.1 hread
  rw [member, hkey]
  dsimp only
  split
  · next hnil => cases hnil.symm.trans h
  · next hcons =>
    cases hcons.symm.trans h
    rw [if_pos rfl, hread]
    rfl

theorem members_last (hread : (member s).map Parsed.pair = .ok (m, t)) (h : skipGap t = '}' :: u) :
    (members first ('"' :: s)).pair = (([m], none), u) := by
  obtain ⟨_, hread⟩ := Parsed.map_pair_ok.1 hread
  rw [members, hread]
  dsimp only
  split
  · next hnil => cases hnil.symm.trans h
  · next hcons =>
    cases hcons.symm.trans h
    rw [if_pos rfl]
    rfl

theorem members_more (hread : (member s).map Parsed.pair = .ok (m, t)) (h : skipGap t = ',' :: u)
    (hothers : (members false (skipGap u)).pair = ((ms, none), v)) :
    (members first ('"' :: s)).pair = ((m :: ms, none), v) := by
  obtain ⟨_, hread⟩ := Parsed.map_pair_ok.1 hread
  obtain ⟨_, hothers⟩ := Parsed.pair_eq_iff.1 hothers
  rw [members, hread]
  dsimp only
  split
  · next hnil => cases hnil.symm.trans h
  · next hcons =>
    cases hcons.symm.trans h
    rw [if_neg (by decide), if_pos rfl, hothers]
    rfl

/-! ### Whole texts -/

mutual

theorem value_complete {u s : List Char} {r : Reading} (h : ValueText u r) (hs : NumberEnd s) :
    (value (u ++ s)).pair = (r, s) := by
  cases h with
  | null =>
    -- a word is told by its first letter, which no other value begins with
    change (value ('n' :: ("ull".toList ++ s))).pair = _
    rw [value, if_neg (by decide), if_pos rfl]
    · exact word_complete "null".toList .null
    all_goals decide
  | true =>
    change (value ('t' :: ("rue".toList ++ s))).pair = _
    rw [value, if_neg (by decide), if_neg (by decide), if_pos rfl]
    · exact word_complete "true".toList (.bool true)
    all_goals decide
  | false =>
    change (value ('f' :: ("alse".toList ++ s))).pair = _
    rw [value, if_neg (by decide), if_neg (by decide), if_neg (by decide), if_pos rfl]
    · exact word_complete "false".toList (.bool false)
    all_goals decide
  | number h => exact number_complete h hs
  | string h =>
    obtain ⟨b, v, rfl, rfl, hread⟩ := stringText_complete (s := s) h
    obtain ⟨_, hread⟩ := Parsed.map_pair_ok.1 hread
    rw [List.cons_append, value, hread]
    rfl
  | @noItems g hg =>
    rw [List.append_assoc]
    exact value_noItems (skipGap_sign hg rfl)
  | @array g u rs hg hu =>
    have hitems := items_complete (s := s) hu
    obtain ⟨c, w, rfl, hgap, hc⟩ := head_items hu
    rw [List.append_assoc, List.append_assoc]
    exact value_items (skipGap_sign hg hgap) hc hitems
  | @noMembers g hg =>
    rw [List.append_assoc]
    exact value_noMembers (skipGap_sign hg rfl)
  | @object g u ms hg hu =>
    have hmembers := members_complete (s := s) true hu
    obtain ⟨w, rfl⟩ := head_members hu
    rw [List.append_assoc, List.append_assoc]
    exact value_members (skipGap_sign hg rfl) (by decide) hmembers
termination_by 2 * u.length
decreasing_by all_goals subst_vars; simp only [List.length_append, List.length_cons]; omega

theorem items_complete {u s : List Char} {rs : List Reading} (h : ItemsText u rs) :
    (items (u ++ ']' :: s)).pair = ((rs, none), s) := by
  cases h with
  | @last u r g hu hg =>
    rw [List.append_assoc]
    exact items_last (value_complete hu (numberEnd_gap hg (numberEnd_sign rfl)))
      (skipGap_sign hg rfl)
  | @more u r g g' v rs hu hg hg' hv =>
    have hothers := items_complete (s := s) hv
    obtain ⟨c, w, rfl, hgap, -⟩ := head_items hv
    have hassoc : u ++ g ++ ',' :: g' ++ c :: w ++ ']' :: s =
        u ++ (g ++ ',' :: (g' ++ (c :: (w ++ ']' :: s)))) := by simp
    rw [hassoc]
    refine items_more (value_complete hu (numberEnd_gap hg (numberEnd_sign rfl)))
      (skipGap_sign hg rfl) ?_
    rw [skipGap_sign hg' hgap]
    exact hothers
termination_by 2 * u.length + 1
decreasing_by all_goals subst_vars; simp only [List.length_append, List.length_cons]; omega

theorem members_complete {u s : List Char} {ms : List Member} (first : Bool)
    (h : MembersText u ms) : (members first (u ++ '}' :: s)).pair = ((ms, none), s) := by
  cases h with
  | @last u m g hu hg =>
    have hmember := member_complete hu (numberEnd_gap hg (numberEnd_sign (s := s) (c := '}') rfl))
    obtain ⟨b, rfl⟩ := head_member hu
    rw [List.append_assoc]
    exact members_last hmember (skipGap_sign hg rfl)
  | @more u m g g' v ms hu hg hg' hv =>
    have hothers := members_complete (s := s) false hv
    have hmember := member_complete hu
      (numberEnd_gap hg (numberEnd_sign (s := g' ++ (v ++ '}' :: s)) (c := ',') rfl))
    obtain ⟨b, rfl⟩ := head_member hu
    obtain ⟨w, rfl⟩ := head_members hv
    have hassoc : '"' :: b ++ g ++ ',' :: g' ++ '"' :: w ++ '}' :: s =
        '"' :: (b ++ (g ++ ',' :: (g' ++ ('"' :: w ++ '}' :: s)))) := by simp
    rw [hassoc]
    refine members_more hmember (skipGap_sign hg rfl) ?_
    rw [List.cons_append, skipGap_sign hg' rfl]
    exact hothers
termination_by 2 * u.length + 1
decreasing_by all_goals subst_vars; simp only [List.length_append, List.length_cons]; omega

theorem member_complete {u s : List Char} {m : Member} (h : MemberText u m) (hs : NumberEnd s) :
    (member (u.tail ++ s)).map Parsed.pair = .ok (m, s) := by
  cases h with
  | @member u key g g' v r hu hg hg' hv =>
    have hvalue := value_complete hv hs
    obtain ⟨c, w, rfl, hgap, -⟩ := head_value hv
    obtain ⟨b, o, rfl, rfl, hkey⟩ :=
      stringText_complete (s := g ++ ':' :: (g' ++ (c :: w ++ s))) hu
    have hassoc : ('"' :: b ++ g ++ ':' :: g' ++ c :: w).tail ++ s =
        b ++ (g ++ ':' :: (g' ++ (c :: w ++ s))) := by simp
    rw [hassoc]
    refine member_colon hkey (skipGap_sign hg rfl) ?_
    rw [List.cons_append, skipGap_sign hg' hgap]
    exact hvalue
termination_by 2 * u.length
decreasing_by all_goals subst_vars; simp only [List.length_append, List.length_cons]; omega

end

theorem document_complete (h : DocumentText s r) : document s = (r, false) := by
  cases h with
  | @document g u r g' hg hu hg' =>
    have hend : NumberEnd g' := by
      simpa using numberEnd_gap (s := []) hg' (by rintro c ⟨⟩)
    have hread := value_complete hu hend
    obtain ⟨c, w, rfl, hgap, -⟩ := head_value hu
    have hskip : skipGap (g ++ (c :: w ++ g')) = c :: w ++ g' := skipGap_sign hg hgap
    have hrest : skipGap g' = [] := by
      simpa using skipGap_append_eq (s := []) hg' rfl
    rw [← hskip] at hread
    obtain ⟨_, hread⟩ := Parsed.pair_eq_iff.1 hread
    rw [List.append_assoc, document, hread]
    simp [hrest]

end Json.Reader

end ModelTypes
