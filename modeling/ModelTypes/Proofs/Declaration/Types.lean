import ModelTypes.Proofs.Declaration.Tokens

/-!
# Reading types

The type readers take exactly the texts of the grammar. `typeAt_sound` and its companions follow the
readers; `typeAt_complete` and its companions follow the grammar, for any rest that a type cannot
take as its own.
-/

namespace ModelTypes.Parser

open Grammar
open Text (isGap isIdentifier isIdentRest isIdentStart skipGap)

variable {s r u v w : List Char}

/-! ## What a reader reads in turn -/

theorem typeAt_ok : (typeAt s).map Parsed.pair = .ok (t, r) ↔
    ∃ leading s₁ first s₂ others, (optionalSign '|' s).pair = (leading, s₁) ∧
      (member? (skipGap s₁)).map (·.map Parsed.pair) = .ok (some (first, s₂)) ∧
      (moreMembers s₂).map Parsed.pair = .ok (others, r) ∧ .ofMembers first others = t := by
  rw [typeAt]
  -- the bounds in the results are taken apart before the pairs can be compared
  rcases optionalSign '|' s with ⟨leading, s₁, h₁⟩
  simp only [Parsed.pair_mk, Prod.mk.injEq, and_assoc, exists_and_left, exists_eq_left']
  rcases member? (skipGap s₁) with e | _ | ⟨first, s₂, h₂⟩
  · simp
  · simp
  · simp only [except_map_ok, Option.map_some, Parsed.pair_mk, Except.ok.injEq,
      Option.some.injEq, Prod.mk.injEq, and_assoc, exists_and_left, exists_eq_left']
    rcases moreMembers s₂ with e | ⟨others, s₃, h₃⟩
    · simp
    · simp [and_assoc, and_comm]

theorem moreMembers_ok : (moreMembers s).map Parsed.pair = .ok (ts, r) ↔
    (ts = [] ∧ r = s ∧ (sign? '|' s = none ∨
      ∃ s₁, (sign? '|' s).map Parsed.pair = some ((), s₁) ∧ member? (skipGap s₁) = .ok none)) ∨
    ∃ s₁ t s₂ others, (sign? '|' s).map Parsed.pair = some ((), s₁) ∧
      (member? (skipGap s₁)).map (·.map Parsed.pair) = .ok (some (t, s₂)) ∧
      (moreMembers s₂).map Parsed.pair = .ok (others, r) ∧ t :: others = ts := by
  rw [moreMembers]
  rcases sign? '|' s with _ | ⟨_, s₁, h₁⟩
  · simp [eq_comm]
  -- a `|` with no member after it belongs to what follows the type
  · simp only [Option.map_some, Parsed.pair_mk, Option.some.injEq, Prod.mk.injEq, true_and,
      reduceCtorEq, false_or, exists_eq_left', exists_and_left]
    rcases hm : member? (skipGap s₁) with e | _ | ⟨t, s₂, h₂⟩
    · simp
    · simp [eq_comm]
    · simp only [except_map_ok, Option.map_some, Parsed.pair_mk, Except.ok.injEq,
        Option.some.injEq, Prod.mk.injEq, and_assoc, exists_and_left, exists_eq_left', reduceCtorEq,
        and_false, false_or]
      rcases moreMembers s₂ with e | ⟨others, s₃, h₃⟩
      · simp
      · simp [and_assoc, and_comm]

theorem member?_ok : (member? s).map (·.map Parsed.pair) = .ok (some (t, r)) ↔
    (∃ s₁ t', s = '?' :: s₁ ∧
      (member? (skipGap s₁)).map (·.map Parsed.pair) = .ok (some (t', r)) ∧ .maybe t' = t) ∨
    s.head? ≠ some '?' ∧ ∃ t' s₁, (primary? s).map (·.map Parsed.pair) = .ok (some (t', s₁)) ∧
      (dimensions t' s₁).pair = (t, r) := by
  rw [member?.eq_def]
  split
  · next s₁ =>
    simp only [List.cons.injEq, true_and, exists_and_left, exists_eq_left', List.head?_cons,
      ne_eq, not_true_eq_false, false_and, or_false]
    rcases member? (skipGap s₁) with e | _ | ⟨t', s₂, h₂⟩
    · simp
    · simp
    · simp [and_assoc, and_comm]
  · next hne =>
    -- the reader's own match says this of the whole text
    have hhead : s.head? ≠ some '?' := by
      intro h
      cases s with
      | nil => cases h
      | cons c cs => cases h; exact hne cs rfl
    have hcons : ∀ s₁, s ≠ '?' :: s₁ := hne
    simp only [hcons, false_and, exists_false, false_or, hhead, ne_eq, not_false_eq_true, true_and]
    rcases primary? s with e | _ | ⟨t', s₂, h₂⟩
    · simp
    · simp
    · simp [and_assoc]

theorem primary?_opening (h : exact = false → s.head? ≠ some '|') :
    (primary? (TypeExpr.opening exact ++ s)).map (·.map Parsed.pair) = .ok (some (t, r)) ↔
      (object exact s).map Parsed.pair = .ok (t, r) := by
  cases exact with
  | true =>
    rw [show TypeExpr.opening true ++ s = '{' :: '|' :: s from rfl, primary?]
    rcases object true s with e | ⟨t', s₂, h₂⟩ <;> simp
  | false =>
    -- without the `|` the two openings would overlap
    rw [show TypeExpr.opening false ++ s = '{' :: s from rfl, primary?]
    · rcases object false s with e | ⟨t', s₂, h₂⟩ <;> simp
    · rintro s₁ rfl
      simp at h

theorem primary?_parenthesis :
    (primary? ('(' :: s)).map (·.map Parsed.pair) = .ok (some (t, r)) ↔
      ∃ s₁, (typeAt s).map Parsed.pair = .ok (t, s₁) ∧
        (sign? ')' s₁).map Parsed.pair = some ((), r) := by
  rw [primary?]
  rcases typeAt s with e | ⟨t', s₁, h₁⟩
  · simp
  · simp only [except_map_ok, Parsed.pair_mk, Except.ok.injEq, Prod.mk.injEq, and_assoc,
      exists_and_left, exists_eq_left']
    rcases sign? ')' s₁ with _ | ⟨_, s₂, h₂⟩ <;> simp

theorem primary?_word (hbrace : s.head? ≠ some '{') (hparen : s.head? ≠ some '(') :
    (primary? s).map (·.map Parsed.pair) = .ok (some (t, r)) ↔
      (∃ v, (literal? s).map (·.map Parsed.pair) = .ok (some (v, r)) ∧
        .literal (String.ofList v) = t) ∨
      literal? s = .ok none ∧ ∃ v, (dottedName? s).map Parsed.pair = some (v, r) ∧
        .named (String.ofList v) = t := by
  have hne : ∀ c s₁, c = '{' ∨ c = '(' → s ≠ c :: s₁ := by
    rintro c s₁ (rfl | rfl) rfl
    · exact hbrace rfl
    · exact hparen rfl
  rw [primary?]
  · rcases literal? s with e | _ | ⟨v, s₁, h₁⟩
    · simp
    · rcases dottedName? s with _ | ⟨v, s₁, h₁⟩ <;> simp [and_assoc, and_comm]
    · simp [and_assoc, and_comm]
  · exact fun s₁ => hne _ _ (.inl rfl)
  · exact fun s₁ => hne _ _ (.inl rfl)
  · exact fun s₁ => hne _ _ (.inr rfl)

theorem object_ok : (object exact s).map Parsed.pair = .ok (t, r) ↔
    ∃ ps s₁ present s₂, (properties s).map Parsed.pair = .ok (ps, s₁) ∧
      (if ps.isEmpty then optionalSeparator s₁ else .nothing false s₁).pair = (present, s₂) ∧
      (closeObject exact s₂).map Parsed.pair = .ok ((), r) ∧ .object exact ps = t := by
  rw [object]
  rcases properties s with e | ⟨ps, s₁, h₁⟩
  · simp
  · simp only [except_map_ok, Parsed.pair_mk, Except.ok.injEq, Prod.mk.injEq, and_assoc,
      exists_and_left, exists_eq_left']
    rcases (if ps.isEmpty then optionalSeparator s₁ else .nothing false s₁) with ⟨present, s₂, h₂⟩
    simp only [Parsed.pair_mk, Prod.mk.injEq, and_assoc, exists_and_left, exists_eq_left']
    rcases closeObject exact s₂ with e | ⟨_, s₃, h₃⟩ <;> simp [and_comm]

theorem properties_ok : (properties s).map Parsed.pair = .ok (ps, r) ↔
    (property? (skipGap s) = .ok none ∧ ps = [] ∧ r = s) ∨
    ∃ p s₁, (property? (skipGap s)).map (·.map Parsed.pair) = .ok (some (p, s₁)) ∧
      ((separator? s₁ = none ∧ ps = [p] ∧ r = s₁) ∨
      ∃ s₂ others, (separator? s₁).map Parsed.pair = some ((), s₂) ∧
        (properties s₂).map Parsed.pair = .ok (others, r) ∧ p :: others = ps) := by
  rw [properties]
  rcases property? (skipGap s) with e | _ | ⟨p, s₁, h₁⟩
  · simp
  · simp [eq_comm]
  · simp only [except_map_ok, Option.map_some, Parsed.pair_mk, Except.ok.injEq, Option.some.injEq,
      Prod.mk.injEq, and_assoc, exists_and_left, exists_eq_left', reduceCtorEq, false_and, false_or]
    rcases separator? s₁ with _ | ⟨_, s₂, h₂⟩
    · simp [eq_comm]
    · simp only [Option.map_some, Parsed.pair_mk, Option.some.injEq, Prod.mk.injEq, true_and,
        reduceCtorEq, false_and, false_or, exists_eq_left']
      rcases properties s₂ with e | ⟨others, s₃, h₃⟩
      · simp
      · simp [and_assoc, and_comm]

theorem property?_ok : (property? s).map (·.map Parsed.pair) = .ok (some (p, r)) ↔
    ∃ key s₁ marked s₂ s₃ value, (key? s).map (·.map Parsed.pair) = .ok (some (key, s₁)) ∧
      (optionalSign '?' s₁).pair = (marked, s₂) ∧
      (sign? ':' s₂).map Parsed.pair = some ((), s₃) ∧
      (typeAt s₃).map Parsed.pair = .ok (value, r) ∧ ⟨String.ofList key, marked, value⟩ = p := by
  rw [property?]
  rcases key? s with e | _ | ⟨key, s₁, h₁⟩
  · simp
  · simp
  · simp only [except_map_ok, Option.map_some, Parsed.pair_mk, Except.ok.injEq, Option.some.injEq,
      Prod.mk.injEq, and_assoc, exists_and_left, exists_eq_left']
    rcases optionalSign '?' s₁ with ⟨marked, s₂, h₂⟩
    simp only [Parsed.pair_mk, Prod.mk.injEq, and_assoc, exists_and_left, exists_eq_left']
    rcases sign? ':' s₂ with _ | ⟨_, s₃, h₃⟩
    · simp
    · simp only [Option.map_some, Parsed.pair_mk, Option.some.injEq, Prod.mk.injEq, true_and,
        exists_eq_left']
      rcases typeAt s₃ with e | ⟨value, s₄, h₄⟩
      · simp
      · simp [and_assoc, and_comm]

/-! ## First characters -/

def Starts (p : Char → Bool) (s : List Char) : Prop :=
  s.head?.any p

def isPrimaryStart (c : Char) : Bool :=
  c == '{' || c == '(' || Literal.isQuote c || isIdentStart c

def isMemberStart (c : Char) : Bool :=
  c == '?' || isPrimaryStart c

theorem isMemberStart_of_isGap (c : Char) (h : isGap c) : isMemberStart c = false := by
  rcases eq_of_isGap h with rfl | rfl | rfl | rfl <;> rfl

section Starts

variable {p q : Char → Bool}

theorem Starts.ne_nil (h : Starts p u) : u ≠ [] := by
  rintro rfl
  cases h

theorem Starts.append (h : Starts p u) : Starts p (u ++ v) := by
  cases u with
  | nil => cases h
  | cons c cs => exact h

theorem Starts.head?_ne (h : Starts p u) (hc : p c = false) : u.head? ≠ some c := by
  intro hu
  simp [Starts, hu, hc] at h

theorem Starts.imp (h : Starts p u) (hpq : ∀ c, p c → q c) : Starts q u := by
  cases u with
  | nil => cases h
  | cons c cs => exact hpq c h

theorem Starts.member (h : Starts isPrimaryStart u) : Starts isMemberStart u :=
  h.imp fun _ hc => Bool.or_eq_true_iff.2 (.inr hc)

theorem Starts.noGap (h : Starts p u) (hp : ∀ c, isGap c → p c = false) : NoGap u := by
  cases u with
  | nil => cases h
  | cons c cs =>
    refine Bool.eq_false_iff.2 fun hgap => ?_
    exact absurd h (Bool.eq_false_iff.1 (hp c hgap))

end Starts

theorem starts_identifier (h : isIdentifier u) : Starts isIdentStart u := by
  obtain ⟨c, cs, rfl, hc⟩ := isIdentStart_head h
  exact hc

theorem starts_literal (h : LiteralText u v) : Starts Literal.isQuote u := by
  cases h with
  | quoted hq _ => exact hq

theorem starts_dottedName (h : DottedName u) : Starts isIdentStart u := by
  cases h with
  | identifier hu => exact starts_identifier hu
  | dotted hu _ => exact (starts_identifier hu).append

theorem starts_key (h : KeyText u v) : Starts isPrimaryStart u := by
  cases h with
  | literal hu => exact (starts_literal hu).imp fun c hc => by simp [isPrimaryStart, hc]
  | bare hu => exact (starts_identifier hu).imp fun c hc => by simp [isPrimaryStart, hc]

theorem starts_primary (h : Primary u t) : Starts isPrimaryStart u := by
  cases h with
  | literal hv => exact (starts_literal hv).imp fun c hc => by simp [isPrimaryStart, hc]
  | @object g u ps g' exact _ _ _ => cases exact <;> rfl
  | parentheses _ _ => rfl
  | named hv => exact (starts_dottedName hv).imp fun c hc => by simp [isPrimaryStart, hc]

theorem starts_member (h : MemberText u t) : Starts isMemberStart u := by
  cases h with
  | maybe _ _ => rfl
  | dimensions hu _ => exact (starts_primary hu).append.member

theorem starts_members (h : Members u ts) : Starts isMemberStart u := by
  cases h with
  | last hu => exact starts_member hu
  | more hu _ _ _ =>
    simp only [List.append_assoc]
    exact (starts_member hu).append

theorem ne_nil_of_type (h : TypeText u t) : u ≠ [] := by
  cases h with
  | members _ _ hu => simp [(starts_members hu).ne_nil]

theorem starts_property (h : PropertyText u p) : Starts isMemberStart u := by
  cases h with
  | property hu _ _ _ =>
    simp only [List.append_assoc]
    exact (starts_key hu).append.member

theorem starts_properties (h : Properties u ps) (hne : ps ≠ []) : Starts isMemberStart u := by
  cases h with
  | none _ => exact absurd rfl hne
  | last hu _ => exact (starts_property hu).append
  | more hu _ _ _ =>
    simp only [List.append_assoc]
    exact (starts_property hu).append

/-! ## What is read is in the grammar -/

theorem exists_opening (h : s.head? = some '{') : ∃ exact s₁,
    (exact = false → s₁.head? ≠ some '|') ∧ s = TypeExpr.opening exact ++ s₁ := by
  obtain ⟨s₁, rfl⟩ := List.head?_eq_some_iff.1 h
  by_cases hbar : s₁.head? = some '|'
  · obtain ⟨s₂, rfl⟩ := List.head?_eq_some_iff.1 hbar
    exact ⟨true, s₂, nofun, rfl⟩
  · exact ⟨false, s₁, fun _ => hbar, rfl⟩

theorem apart_closing : Apart (u ++ TypeExpr.closing exact) r := by
  cases exact with
  | true => rw [show u ++ TypeExpr.closing true = (u ++ ['|']) ++ ['}'] by simp [TypeExpr.closing]]
            exact apart_concat rfl
  | false => exact apart_concat rfl

theorem apart_dimensions (hu : Apart u (v ++ r)) (hv : Dimensions v t t') : Apart (u ++ v) r := by
  -- what comes before the dimensions grows with each of them
  induction hv generalizing u with
  | none => simpa using hu
  | @array w w' v t t' _ hw' _ ih =>
    have hclosed : Apart (u ++ w ++ w') (v ++ r) := hw'.apart rfl
    simpa using ih hclosed

theorem apart_literal (h : LiteralText u v) : Apart u r := by
  cases h with
  | quoted hq _ =>
    refine apart_concat ?_
    rcases Literal.eq_of_isQuote hq with rfl | rfl <;> rfl

mutual

theorem typeAt_sound {s r : List Char} {t : TypeExpr}
    (h : (typeAt s).map Parsed.pair = .ok (t, r)) :
    ∃ u, TypeText u t ∧ Apart u r ∧ s = u ++ r := by
  obtain ⟨leading, s₁, first, s₂, others, hsign, hfirst, hothers, rfl⟩ := typeAt_ok.1 h
  -- these bounds are what the termination measure needs
  obtain ⟨hlt₁, -⟩ := Parsed.pair_eq_iff.1 hsign
  obtain ⟨hlt₂, -⟩ := Parsed.map_pair_ok_some.1 hfirst
  have hskip := Text.length_skipGap_le s₁
  obtain ⟨u, hu, hapart, hs₁⟩ := member?_sound hfirst
  obtain ⟨v, hv, hapart, rfl⟩ := moreMembers_sound hu hapart hothers
  obtain ⟨w, hw, rfl⟩ := optionalSign_sound hsign
  obtain ⟨g, hg, hgap⟩ := exists_gap s₁
  rw [hs₁] at hgap
  refine ⟨w ++ g ++ (u ++ v), .members hw hg hv, ?_, by simp [hgap]⟩
  rwa [apart_append (by simp [(starts_member hu).ne_nil])]
termination_by 8 * s.length + 3

theorem moreMembers_sound {s r u : List Char} {t : TypeExpr} {ts : List TypeExpr}
    (hu : MemberText u t) (ha : Apart u s) (h : (moreMembers s).map Parsed.pair = .ok (ts, r)) :
    ∃ v, Members (u ++ v) (t :: ts) ∧ Apart (u ++ v) r ∧ s = v ++ r := by
  -- the first member `u` is given, since the grammar has no empty list of members
  rcases moreMembers_ok.1 h with ⟨rfl, rfl, -⟩ | ⟨s₁, t', s₂, others, hsign, hmember, hothers, rfl⟩
  · exact ⟨[], by simpa using .last hu, by simpa using ha, rfl⟩
  · obtain ⟨hlt₁, -⟩ := Parsed.map_pair_some.1 hsign
    obtain ⟨hlt₂, -⟩ := Parsed.map_pair_ok_some.1 hmember
    have hskip := Text.length_skipGap_le s₁
    obtain ⟨u', hu', hapart, hs₁⟩ := member?_sound hmember
    obtain ⟨v, hv, hapart, rfl⟩ := moreMembers_sound hu' hapart hothers
    obtain ⟨w, hw, rfl⟩ := sign?_sound hsign
    obtain ⟨g, hg, hgap⟩ := exists_gap s₁
    rw [hs₁] at hgap
    refine ⟨w ++ g ++ (u' ++ v), by simpa using Members.more hu hw hg hv, ?_, by simp [hgap]⟩
    rwa [← List.append_assoc, apart_append (by simp [(starts_member hu').ne_nil])]
termination_by 8 * s.length + 3

theorem member?_sound {s r : List Char} {t : TypeExpr}
    (h : (member? s).map (·.map Parsed.pair) = .ok (some (t, r))) :
    ∃ u, MemberText u t ∧ Apart u r ∧ s = u ++ r := by
  rcases member?_ok.1 h with ⟨s₁, t', hs, hmember, rfl⟩ | ⟨-, t', s₁, hprimary, hdimensions⟩
  · have hlt : s.length = s₁.length + 1 := by rw [hs, List.length_cons]
    have hskip := Text.length_skipGap_le s₁
    obtain ⟨u, hu, hapart, hs₁⟩ := member?_sound hmember
    obtain ⟨g, hg, hgap⟩ := exists_gap s₁
    rw [hs₁] at hgap
    refine ⟨'?' :: g ++ u, .maybe hg hu, ?_, by simp [hs, hgap]⟩
    rwa [apart_append (starts_member hu).ne_nil]
  · obtain ⟨u, hu, hapart, rfl⟩ := primary?_sound hprimary
    obtain ⟨v, hv, rfl⟩ := dimensions_sound hdimensions
    exact ⟨u ++ v, .dimensions hu hv, apart_dimensions hapart hv, by simp⟩
termination_by 8 * s.length + 2

theorem primary?_sound {s r : List Char} {t : TypeExpr}
    (h : (primary? s).map (·.map Parsed.pair) = .ok (some (t, r))) :
    ∃ u, Primary u t ∧ Apart u r ∧ s = u ++ r := by
  -- the first character chooses the kind of type
  by_cases hbrace : s.head? = some '{'
  · obtain ⟨exact, s₁, hhead, hs⟩ := exists_opening hbrace
    have hlt : s₁.length < s.length := by
      rw [hs, List.length_append]
      exact Nat.lt_add_of_pos_left (by cases exact <;> decide)
    obtain ⟨g, u, g', ps, hg, hu, hg', rfl, rfl⟩ :=
      object_sound ((primary?_opening hhead).1 (hs ▸ h))
    exact ⟨_, .object hg hu hg', apart_closing, by simp [hs]⟩
  by_cases hparen : s.head? = some '('
  · obtain ⟨s₁, hs⟩ := List.head?_eq_some_iff.1 hparen
    have hlt : s.length = s₁.length + 1 := by rw [hs, List.length_cons]
    obtain ⟨s₂, htype, hsign⟩ := primary?_parenthesis.1 (hs ▸ h)
    obtain ⟨u, hu, -, rfl⟩ := typeAt_sound htype
    obtain ⟨w, hw, rfl⟩ := sign?_sound hsign
    exact ⟨'(' :: u ++ w, .parentheses hu hw, hw.apart rfl, by simp [hs]⟩
  · rcases (primary?_word hbrace hparen).1 h with ⟨v, hliteral, rfl⟩ | ⟨-, v, hname, rfl⟩
    · obtain ⟨u, hu, rfl⟩ := literal?_iff.1 hliteral
      exact ⟨u, .literal hu, apart_literal hu, rfl⟩
    · obtain ⟨hv, hr, rfl⟩ := dottedName?_sound hname
      exact ⟨v, .named hv, hr.apart, rfl⟩
termination_by 8 * s.length + 1

theorem object_sound {exact : Bool} {s r : List Char} {t : TypeExpr}
    (h : (object exact s).map Parsed.pair = .ok (t, r)) :
    ∃ g u g' ps, Gap g ∧ Properties u ps ∧ Gap g' ∧ t = .object exact ps ∧
      s = g ++ u ++ g' ++ TypeExpr.closing exact ++ r := by
  obtain ⟨ps, s₁, present, s₂, hproperties, hseparator, hclose, rfl⟩ := object_ok.1 h
  obtain ⟨g', hg', rfl⟩ := closeObject_iff.1 hclose
  -- only an object without properties has its separator read here
  rcases properties_sound hproperties with ⟨rfl, rfl⟩ | ⟨g, u, hg, hu, hne, rfl⟩
  · obtain ⟨w, hw, rfl⟩ := optionalSeparator_sound hseparator
    exact ⟨[], w, g', [], gap_nil, .none hw, hg', rfl, by simp⟩
  · rw [if_neg (by simpa using hne), Parsed.pair_nothing, Prod.mk.injEq] at hseparator
    obtain ⟨-, rfl⟩ := hseparator
    exact ⟨g, u, g', ps, hg, hu, hg', rfl, by simp⟩
termination_by 8 * s.length + 5

theorem properties_sound {s r : List Char} {ps : List Property}
    (h : (properties s).map Parsed.pair = .ok (ps, r)) :
    ps = [] ∧ s = r ∨ ∃ g u, Gap g ∧ Properties u ps ∧ ps ≠ [] ∧ s = g ++ u ++ r := by
  rcases properties_ok.1 h with ⟨-, rfl, rfl⟩ | ⟨p, s₁, hproperty, hrest⟩
  · exact .inl ⟨rfl, rfl⟩
  · have hskip := Text.length_skipGap_le s
    obtain ⟨hlt₁, -⟩ := Parsed.map_pair_ok_some.1 hproperty
    obtain ⟨u, hu, hs₁⟩ := property?_sound hproperty
    obtain ⟨g, hg, hgap⟩ := exists_gap s
    rw [hs₁] at hgap
    rcases hrest with ⟨-, rfl, rfl⟩ | ⟨s₂, others, hseparator, hothers, rfl⟩
    · have hlast : Properties (u ++ []) [p] := .last hu (.inl rfl)
      exact .inr ⟨g, u, hg, by simpa using hlast, by simp, by simp [hgap]⟩
    -- after a separator there are more properties or it was the last one
    · obtain ⟨hlt₂, -⟩ := Parsed.map_pair_some.1 hseparator
      obtain ⟨w, hw, hs₂⟩ := separator?_sound hseparator
      rcases properties_sound hothers with ⟨rfl, rfl⟩ | ⟨g', v, hg', hv, hne, rfl⟩
      · exact .inr ⟨g, u ++ w, hg, .last hu (.inr hw), by simp, by simp [hgap, hs₂]⟩
      · obtain ⟨q, qs, rfl⟩ := List.exists_cons_of_ne_nil hne
        exact .inr ⟨g, _, hg, .more hu hw hg' hv, by simp, by simp [hgap, hs₂]⟩
termination_by 8 * s.length + 4

theorem property?_sound {s r : List Char} {p : Property}
    (h : (property? s).map (·.map Parsed.pair) = .ok (some (p, r))) :
    ∃ u, PropertyText u p ∧ s = u ++ r := by
  obtain ⟨key, s₁, marked, s₂, s₃, value, hkey, hmark, hcolon, hvalue, rfl⟩ := property?_ok.1 h
  obtain ⟨hlt₁, -⟩ := Parsed.map_pair_ok_some.1 hkey
  obtain ⟨hlt₂, -⟩ := Parsed.pair_eq_iff.1 hmark
  obtain ⟨hlt₃, -⟩ := Parsed.map_pair_some.1 hcolon
  obtain ⟨v, hv, -, rfl⟩ := typeAt_sound hvalue
  obtain ⟨w', hw', rfl⟩ := sign?_sound hcolon
  obtain ⟨w, hw, rfl⟩ := optionalSign_sound hmark
  obtain ⟨u, hu, rfl⟩ := key?_sound hkey
  exact ⟨_, .property hu hw hw' hv, by simp⟩
termination_by 8 * s.length + 3

end

/-! ## What is in the grammar is read -/

/-- A text that no member of a union can take as its own. -/
def MemberEnd (r : List Char) : Prop :=
  r.head? ≠ some '.' ∧ (skipGap r).head? ≠ some '['

def TypeEnd (r : List Char) : Prop :=
  MemberEnd r ∧ ∀ r', skipGap r = '|' :: r' → (skipGap r').head?.any isMemberStart = false

theorem any_isMemberStart (h : s.head?.any isMemberStart = false) :
    s.head?.any Literal.isQuote = false ∧ s.head?.any isIdentStart = false := by
  cases s with
  | nil => exact ⟨rfl, rfl⟩
  | cons c cs =>
    simp only [List.head?_cons, Option.any_some, isMemberStart, isPrimaryStart,
      Bool.or_eq_false_iff] at h
    exact ⟨h.2.1.2, h.2.2⟩

theorem primary?_eq_none (h : s.head?.any isMemberStart = false) : primary? s = .ok none := by
  obtain ⟨hquote, hident⟩ := any_isMemberStart h
  rw [primary?]
  · simp [literal?_eq_none hquote, dottedName?_eq_none hident]
  all_goals
    rintro s₁ rfl
    cases h

theorem member?_eq_none (h : s.head?.any isMemberStart = false) : member? s = .ok none := by
  rw [member?]
  · simp [primary?_eq_none h]
  · rintro s₁ rfl
    simp [isMemberStart] at h

theorem property?_eq_none (h : s.head?.any isMemberStart = false) : property? s = .ok none := by
  obtain ⟨hquote, hident⟩ := any_isMemberStart h
  rw [property?]
  simp [key?_eq_none hquote hident]

theorem properties_nil (h : (skipGap s).head?.any isMemberStart = false) :
    (properties s).map Parsed.pair = .ok ([], s) :=
  properties_ok.2 (.inl ⟨property?_eq_none h, rfl, rfl⟩)

theorem head?_gap (hg : Gap g) (hs : s.head? ≠ some d) (hd : isGap d = false) :
    (g ++ s).head? ≠ some d := by
  cases g with
  | nil => exact hs
  | cons c cs =>
    rintro ⟨⟩
    exact absurd (hg d (by simp)) (by simp [hd])

theorem head?_sign (h : Sign c w) (hc : c ≠ d) (hd : isGap d = false) : (w ++ r).head? ≠ some d := by
  obtain ⟨g, hg, rfl⟩ := h
  rw [List.append_assoc]
  exact head?_gap hg (by simpa using hc) hd

theorem memberEnd_sign (h : Sign c w) (hdot : c ≠ '.') (hbracket : c ≠ '[') (hc : isGap c = false) :
    MemberEnd (w ++ r) := by
  rw [MemberEnd, Sign.skipGap_eq h hc]
  exact ⟨head?_sign h hdot rfl, by simpa using hbracket⟩

theorem typeEnd_sign (h : Sign c w) (hdot : c ≠ '.') (hbracket : c ≠ '[') (hbar : c ≠ '|')
    (hc : isGap c = false) : TypeEnd (w ++ r) := by
  refine ⟨memberEnd_sign h hdot hbracket hc, ?_⟩
  rw [Sign.skipGap_eq h hc]
  rintro r' ⟨⟩
  exact absurd rfl hbar

/-- How a text goes on after the properties of an object. -/
def ObjectEnd (s : List Char) : Prop :=
  ∃ g exact r, Gap g ∧ s = g ++ TypeExpr.closing exact ++ r

theorem ObjectEnd.typeEnd (h : ObjectEnd s) : TypeEnd s := by
  obtain ⟨g, exact, r, hg, rfl⟩ := h
  cases exact with
  | true =>
    have hsign : Sign '|' (g ++ ['|']) := ⟨g, hg, rfl⟩
    rw [show g ++ TypeExpr.closing true ++ r = g ++ ['|'] ++ '}' :: r by simp [TypeExpr.closing]]
    refine ⟨memberEnd_sign hsign (by decide) (by decide) rfl, ?_⟩
    rw [Sign.skipGap_eq hsign rfl]
    rintro r' ⟨⟩
    rfl
  | false => exact typeEnd_sign ⟨g, hg, rfl⟩ (by decide) (by decide) (by decide) rfl

theorem ObjectEnd.wordEnd (h : ObjectEnd s) : WordEnd s := by
  obtain ⟨g, exact, r, hg, rfl⟩ := h
  rw [List.append_assoc]
  exact hg.wordEnd (by cases exact <;> rfl)

theorem ObjectEnd.skipGap_eq (h : ObjectEnd s) :
    ∃ c cs, skipGap s = c :: cs ∧ (c = '|' ∨ c = '}') := by
  obtain ⟨g, exact, r, hg, rfl⟩ := h
  rw [List.append_assoc, skipGap_append_eq hg noGap_closing]
  cases exact with
  | true => exact ⟨_, _, rfl, .inl rfl⟩
  | false => exact ⟨_, _, rfl, .inr rfl⟩

theorem ObjectEnd.properties_nil (h : ObjectEnd s) :
    (properties s).map Parsed.pair = .ok ([], s) := by
  obtain ⟨c, cs, hskip, hc⟩ := h.skipGap_eq
  refine Parser.properties_nil ?_
  rw [hskip]
  rcases hc with rfl | rfl <;> rfl

theorem ObjectEnd.separator?_eq_none (h : ObjectEnd s) : separator? s = none := by
  obtain ⟨c, cs, hskip, hc⟩ := h.skipGap_eq
  refine Parser.separator?_eq_none ?_ ?_ <;> rw [hskip] <;> rcases hc with rfl | rfl <;> simp

theorem typeEnd_separator (h : Separator w) : TypeEnd (w ++ r) := by
  rcases h with h | h <;> exact typeEnd_sign h (by decide) (by decide) (by decide) rfl

theorem properties_nil_separator (h : Separator w) :
    (properties (w ++ r)).map Parsed.pair = .ok ([], w ++ r) := by
  refine properties_nil ?_
  rcases h with h | h <;> (rw [Sign.skipGap_eq h rfl]; rfl)

theorem moreMembers_nil (hr : TypeEnd r) : (moreMembers r).map Parsed.pair = .ok ([], r) := by
  refine moreMembers_ok.2 (.inl ⟨rfl, rfl, ?_⟩)
  -- a `|` may follow a type if no member follows the `|`, as in `|}`
  by_cases hbar : (skipGap r).head? = some '|'
  · obtain ⟨r', hr'⟩ := List.head?_eq_some_iff.1 hbar
    obtain ⟨g, hg, hgap⟩ := exists_gap r
    refine .inr ⟨r', ?_, member?_eq_none (hr.2 r' hr')⟩
    rw [hgap, hr', show g ++ '|' :: r' = g ++ ['|'] ++ r' by simp]
    exact sign?_complete ⟨g, hg, rfl⟩ rfl
  · exact .inl (sign?_eq_none hbar)

theorem wordEnd_of_identifier (hu : isIdentifier u) (ha : Apart u r) : WordEnd r := by
  cases u with
  | nil => cases hu
  | cons c cs =>
    obtain ⟨hc, hcs⟩ := Bool.and_eq_true_iff.1 hu
    refine ha ?_
    rw [List.getLast?_eq_some_getLast (List.cons_ne_nil c cs)]
    rcases List.mem_cons.1 (List.getLast_mem (List.cons_ne_nil c cs)) with hlast | hlast
    · rw [hlast]
      exact Text.isIdentRest_of_isIdentStart hc
    · exact List.all_eq_true.1 hcs _ hlast

theorem wordEnd_of_dottedName (hu : DottedName u) (ha : Apart u r) : WordEnd r := by
  -- only the last identifier touches the rest
  induction hu with
  | identifier hu => exact wordEnd_of_identifier hu ha
  | @dotted u v _ hv ih =>
    rw [List.append_cons, apart_append (starts_dottedName hv).ne_nil] at ha
    exact ih ha

theorem Starts.not_isQuote (h : Starts isIdentStart u) : u.head?.any Literal.isQuote = false := by
  cases u with
  | nil => cases h
  | cons c cs => exact not_isQuote_of_isIdentStart h

theorem head?_properties (h : Properties u ps) (hg : Gap g) :
    (u ++ (g ++ TypeExpr.closing false ++ r)).head? ≠ some '|' := by
  -- without properties the separator or the closing brace comes first
  by_cases hne : ps = []
  · cases h with
    | none hw =>
      rcases hw with rfl | hw | hw
      · rw [List.nil_append, List.append_assoc]
        exact head?_gap hg (by simp [TypeExpr.closing]) rfl
      · exact head?_sign hw (by decide) rfl
      · exact head?_sign hw (by decide) rfl
    | last => cases hne
    | more => cases hne
  · exact (starts_properties h hne).append.head?_ne rfl

theorem dimensions_rest (hv : Dimensions v t t') (hr : r.head? ≠ some '.') (ha : Apart (u ++ v) r) :
    (v ++ r).head? ≠ some '.' ∧ Apart u (v ++ r) := by
  cases hv with
  | none => exact ⟨hr, by simpa using ha⟩
  | @array w w' v _ _ hw _ _ =>
    rw [List.append_assoc, List.append_assoc]
    exact ⟨head?_sign hw (by decide) rfl, (hw.wordEnd rfl).apart⟩

theorem object_complete (hg : Gap g) (hu : Properties u ps) (hg' : Gap g')
    (h : ps ≠ [] → (properties (g ++ (u ++ (g' ++ TypeExpr.closing exact ++ r)))).map Parsed.pair =
      .ok (ps, g' ++ TypeExpr.closing exact ++ r)) :
    (object exact (g ++ (u ++ (g' ++ TypeExpr.closing exact ++ r)))).map Parsed.pair =
      .ok (.object exact ps, r) := by
  have hclose : (closeObject exact (g' ++ TypeExpr.closing exact ++ r)).map Parsed.pair =
      .ok ((), r) := closeObject_iff.2 ⟨g', hg', rfl⟩
  -- the gaps on both sides of no properties are read as one
  by_cases hne : ps = []
  · cases hu with
    | none hw =>
      rcases hw with rfl | hw
      · have hend : ObjectEnd (g ++ (g' ++ TypeExpr.closing exact ++ r)) :=
          ⟨g ++ g', exact, r, hg.append hg', by simp⟩
        refine object_ok.2 ⟨[], _, false, _, hend.properties_nil,
          optionalSeparator_absent hend.separator?_eq_none, ?_, rfl⟩
        exact closeObject_iff.2 ⟨g ++ g', hg.append hg', by simp⟩
      · have hsep : Separator (g ++ u) := hw.after_gap hg
        rw [← List.append_assoc]
        exact object_ok.2 ⟨[], _, true, _, properties_nil_separator hsep, optionalSeparator_present hsep,
          hclose, rfl⟩
    | last => cases hne
    | more => cases hne
  · refine object_ok.2 ⟨ps, _, false, _, h hne, ?_, hclose, rfl⟩
    rw [if_neg (by simpa using hne), Parsed.pair_nothing]

mutual

theorem typeAt_complete {u r : List Char} {t : TypeExpr} (h : TypeText u t) (hr : TypeEnd r)
    (ha : Apart u r) : (typeAt (u ++ r)).map Parsed.pair = .ok (t, r) := by
  cases h with
  | @members leading w g u first others hw hg hu =>
    -- a member begins after the gap, so the reader stops skipping there
    have hstart : Starts isMemberStart (u ++ r) := (starts_members hu).append
    have hskip : skipGap (g ++ (u ++ r)) = u ++ r := skipGap_append_eq hg (hstart.noGap isMemberStart_of_isGap)
    obtain ⟨t, ts, s, hts, hfirst, hothers⟩ :=
      members_complete hu hr ((apart_append (starts_members hu).ne_nil).1 ha)
    obtain ⟨rfl, rfl⟩ := List.cons.inj hts
    refine typeAt_ok.2 ⟨leading, g ++ (u ++ r), first, s, others, ?_, ?_, hothers, rfl⟩
    · rw [List.append_assoc, List.append_assoc]
      refine optionalSign_complete hw rfl fun _ => ?_
      rw [hskip]
      exact hstart.head?_ne rfl
    · rwa [hskip]
termination_by 4 * u.length + 3

theorem members_complete {u r : List Char} {ts : List TypeExpr} (h : Members u ts) (hr : TypeEnd r)
    (ha : Apart u r) : ∃ t others s, ts = t :: others ∧
      (member? (u ++ r)).map (·.map Parsed.pair) = .ok (some (t, s)) ∧
      (moreMembers s).map Parsed.pair = .ok (others, r) := by
  cases h with
  | @last u t hu => exact ⟨t, [], r, rfl, member?_complete hu hr.1 ha, moreMembers_nil hr⟩
  | @more u t w g v ts hu hw hg hv =>
    have hstart : Starts isMemberStart (v ++ r) := (starts_members hv).append
    have hpos : 0 < w.length := hw.length_pos
    obtain ⟨t', others, s, rfl, hfirst, hothers⟩ :=
      members_complete hv hr ((apart_append (starts_members hv).ne_nil).1 ha)
    -- the reader sees the text after a member as one rest
    have hassoc : u ++ w ++ g ++ v ++ r = u ++ (w ++ (g ++ (v ++ r))) := by simp
    refine ⟨t, t' :: others, w ++ (g ++ (v ++ r)), rfl, ?_, ?_⟩
    · rw [hassoc]
      refine member?_complete hu ?_ (hw.wordEnd rfl).apart
      exact memberEnd_sign hw (by decide) (by decide) rfl
    · refine moreMembers_ok.2 (.inr ⟨g ++ (v ++ r), t', s, others, sign?_complete hw rfl, ?_,
        hothers, rfl⟩)
      rwa [skipGap_append_eq hg (hstart.noGap isMemberStart_of_isGap)]
termination_by 4 * u.length + 2
decreasing_by
  · subst_vars
    omega
  all_goals subst_vars; simp only [List.length_append]; omega

theorem member?_complete {u r : List Char} {t : TypeExpr} (h : MemberText u t) (hr : MemberEnd r)
    (ha : Apart u r) : (member? (u ++ r)).map (·.map Parsed.pair) = .ok (some (t, r)) := by
  cases h with
  | @maybe g u t hg hu =>
    have hstart : Starts isMemberStart (u ++ r) := (starts_member hu).append
    refine member?_ok.2 (.inl ⟨g ++ (u ++ r), t, by simp, ?_, rfl⟩)
    rw [skipGap_append_eq hg (hstart.noGap isMemberStart_of_isGap)]
    exact member?_complete hu hr ((apart_append (starts_member hu).ne_nil).1 ha)
  | @dimensions u t v _ hu hv =>
    obtain ⟨hdot, hapart⟩ := dimensions_rest hv hr.1 ha
    refine member?_ok.2 (.inr ⟨?_, t, v ++ r, ?_, dimensions_complete hv hr.2⟩)
    · rw [List.append_assoc]
      exact (starts_primary hu).append.head?_ne rfl
    · rw [List.append_assoc]
      exact primary?_complete hu hdot hapart
termination_by 4 * u.length + 1

theorem primary?_complete {u r : List Char} {t : TypeExpr} (h : Primary u t)
    (hdot : r.head? ≠ some '.') (ha : Apart u r) :
    (primary? (u ++ r)).map (·.map Parsed.pair) = .ok (some (t, r)) := by
  cases h with
  | @literal u v hu =>
    have hstart : Starts Literal.isQuote (u ++ r) := (starts_literal hu).append
    refine (primary?_word (hstart.head?_ne rfl) (hstart.head?_ne rfl)).2 (.inl ⟨v, ?_, rfl⟩)
    exact literal?_iff.2 ⟨u, hu, rfl⟩
  | @object g u ps g' exact hg hu hg' =>
    have hassoc : TypeExpr.opening exact ++ g ++ u ++ g' ++ TypeExpr.closing exact ++ r =
        TypeExpr.opening exact ++ (g ++ (u ++ (g' ++ TypeExpr.closing exact ++ r))) := by simp
    rw [hassoc]
    have hpos : 0 < (TypeExpr.opening exact).length := by cases exact <;> decide
    have hend : ObjectEnd (g' ++ TypeExpr.closing exact ++ r) := ⟨g', exact, r, hg', rfl⟩
    refine (primary?_opening ?_).2
      (object_complete hg hu hg' fun hne => properties_complete hu hg hne hend)
    -- an object that is not exact must not be taken for one that is
    rintro rfl
    exact head?_gap hg (head?_properties hu hg') rfl
  | @parentheses u t w hu hw =>
    rw [List.append_assoc, List.cons_append]
    have hend : TypeEnd (w ++ r) := typeEnd_sign hw (by decide) (by decide) (by decide) rfl
    exact primary?_parenthesis.2 ⟨w ++ r, typeAt_complete hu hend (hw.wordEnd rfl).apart,
      sign?_complete hw rfl⟩
  | named hu =>
    have hstart : Starts isIdentStart (u ++ r) := (starts_dottedName hu).append
    refine (primary?_word (hstart.head?_ne rfl) (hstart.head?_ne rfl)).2 (.inr ⟨?_, u, ?_, rfl⟩)
    · exact literal?_eq_none hstart.not_isQuote
    · exact dottedName?_complete hu (wordEnd_of_dottedName hu ha) hdot
termination_by 4 * u.length
decreasing_by
  all_goals subst_vars; simp only [List.length_append, List.length_cons]; omega

theorem properties_complete {g u e : List Char} {ps : List Property} (hu : Properties u ps)
    (hg : Gap g) (hne : ps ≠ []) (he : ObjectEnd e) :
    (properties (g ++ (u ++ e))).map Parsed.pair = .ok (ps, e) := by
  have hskip : skipGap (g ++ (u ++ e)) = u ++ e :=
    skipGap_append_eq hg ((starts_properties hu hne).append.noGap isMemberStart_of_isGap)
  cases hu with
  | none _ => exact absurd rfl hne
  | @last u p w hu hw =>
    refine properties_ok.2 (.inr ⟨p, w ++ e, ?_, ?_⟩)
    · rw [hskip, List.append_assoc]
      rcases hw with rfl | hw
      · exact property?_complete hu he.typeEnd he.wordEnd.apart
      · exact property?_complete hu (typeEnd_separator hw) hw.wordEnd.apart
    · rcases hw with rfl | hw
      · exact .inl ⟨he.separator?_eq_none, rfl, rfl⟩
      · exact .inr ⟨e, [], separator?_complete hw, he.properties_nil, rfl⟩
  | @more u p w g₁ v q ps hu hw hg₁ hv =>
    have hpos : 0 < w.length := hw.length_pos
    refine properties_ok.2 (.inr ⟨p, w ++ (g₁ ++ (v ++ e)), ?_, .inr ⟨g₁ ++ (v ++ e), q :: ps,
      separator?_complete hw, properties_complete hv hg₁ (List.cons_ne_nil q ps) he, rfl⟩⟩)
    have hassoc : u ++ w ++ g₁ ++ v ++ e = u ++ (w ++ (g₁ ++ (v ++ e))) := by simp
    rw [hskip, hassoc]
    exact property?_complete hu (typeEnd_separator hw) hw.wordEnd.apart
termination_by 4 * u.length + 1
decreasing_by
  all_goals subst_vars; simp only [List.length_append]; omega

theorem property?_complete {u r : List Char} {p : Property} (h : PropertyText u p) (hr : TypeEnd r)
    (ha : Apart u r) : (property? (u ++ r)).map (·.map Parsed.pair) = .ok (some (p, r)) := by
  cases h with
  | @property u key marked w w' v t hu hw hw' hv =>
    have hpos : 0 < w'.length := hw'.length_pos
    -- the colon keeps the reader from seeing a second mark
    have hcolon : (skipGap (w' ++ (v ++ r))).head? ≠ some '?' := by
      rw [Sign.skipGap_eq hw' rfl]
      simp
    have hend : WordEnd (w ++ (w' ++ (v ++ r))) := by
      cases marked with
      | true => exact Sign.wordEnd hw rfl
      | false =>
        obtain rfl := hw
        exact hw'.wordEnd rfl
    have hassoc : u ++ w ++ w' ++ v ++ r = u ++ (w ++ (w' ++ (v ++ r))) := by simp
    rw [hassoc]
    refine property?_ok.2 ⟨key, w ++ (w' ++ (v ++ r)), marked, w' ++ (v ++ r), v ++ r, t,
      key?_complete hu hend, optionalSign_complete hw rfl fun _ => hcolon,
      sign?_complete hw' rfl, typeAt_complete hv hr ?_, rfl⟩
    rwa [apart_append (ne_nil_of_type hv)] at ha
termination_by 4 * u.length
decreasing_by
  all_goals subst_vars; simp only [List.length_append]; omega

end

end ModelTypes.Parser
