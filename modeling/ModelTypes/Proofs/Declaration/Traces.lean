import ModelTypes.Proofs.Declaration.Items
import ModelTypes.Proofs.Declaration.Recognizers

/-!
# Readers and recognizers

Each reader has the outcome of its recognizer: it reads the same front of a text and refuses the
same texts, and its error is the place and the name of the trace that the recognizer leaves.
-/

namespace ModelTypes

open Literal (isQuote)
open ModelTypes.Parser
open Text (isGap isIdentRest isIdentStart skipGap)

/-! ## Errors and traces -/

namespace Trace

/-- The trace begins where the error arose, and names what the error expected. -/
structure Tells (t : Trace) (e : SyntaxError) : Prop where
  place : ∃ m more, t = (e.rest, m) :: more
  named : ∃ what, e.cause = .expected what ∧ t.expectation? = some what

variable {t t' : Trace} {e : SyntaxError} {s : List Char}

theorem Tells.append (h : t.Tells e) : Tells (t ++ t') e := by
  obtain ⟨⟨m, more, rfl⟩, what, hcause, hnamed⟩ := h
  refine ⟨⟨m, more ++ t', rfl⟩, what, hcause, ?_⟩
  rw [expectation?] at hnamed ⊢
  rw [List.findSome?_append, hnamed]
  rfl

def Reports (t : Trace) (e : SyntaxError) : Prop :=
  t.report? = some (e.rest, e.cause.message)

theorem Tells.reports (h : t.Tells e) : t.Reports e := by
  obtain ⟨⟨m, more, rfl⟩, what, hcause, hnamed⟩ := h
  rw [Reports, report?, hnamed, hcause]
  rfl

end Trace

namespace Recognizer

variable {a b x : Recognizer} {s : List Char} {t : Trace} {o : Outcome} {n : Nat}

/-- The result of a reader that cannot fail otherwise than by refusing, with the trace `t`. -/
def Takes (x : Recognizer) (s : List Char) (t : Trace) : Option (Parsed α n) → Prop
  | some p => Runs x s (.read p.rest)
  | none => Runs x s (.refused t)

/-- Some failure, a refusal or not, with a trace such as `P`. -/
def Fails (x : Recognizer) (s : List Char) (P : Trace → Prop) : Prop :=
  ∃ t, P t ∧ (Runs x s (.refused t) ∨ Runs x s (.committed t))

/-- The result of a reader that leaves open whether an error is a refusal. Its trace and the error
are related by `P`. -/
def Stops (x : Recognizer) (s : List Char) (P : Trace → SyntaxError → Prop) :
    Except SyntaxError (Parsed α n) → Prop
  | .ok p => Runs x s (.read p.rest)
  | .error e => x.Fails s (P · e)

/-- The result of a reader that is committed. -/
def Commits (x : Recognizer) (s : List Char) : Except SyntaxError (Parsed α n) → Prop
  | .ok p => Runs x s (.read p.rest)
  | .error e => ∃ t, t.Tells e ∧ Runs x s (.committed t)

/-- The result of a reader that refuses with a trace such as `P`, or else is committed. -/
def Tries (x : Recognizer) (s : List Char) (P : Trace → Prop) :
    Except SyntaxError (Option (Parsed α n)) → Prop
  | .ok (some p) => Runs x s (.read p.rest)
  | .ok none => ∃ t, P t ∧ Runs x s (.refused t)
  | .error e => ∃ t, t.Tells e ∧ Runs x s (.committed t)

theorem Fails.imp {s' : List Char} {P : Trace → Prop} (h : a.Fails s P)
    (hb : ∀ o, o.isRead = false → Runs a s o → Runs b s' o) : b.Fails s' P := by
  obtain ⟨t, ht, hx | hx⟩ := h
  · exact ⟨t, ht, .inl (hb _ rfl hx)⟩
  · exact ⟨t, ht, .inr (hb _ rfl hx)⟩

theorem Stops.cut {result : Except SyntaxError (Parsed α n)} (h : x.Stops s Trace.Tells result) :
    (cut x).Commits s result := by
  cases result with
  | ok p => exact Runs.cut h
  | error e =>
    obtain ⟨t, ht, hx | hx⟩ := h
    · exact ⟨t, ht, .cut hx⟩
    · exact ⟨t, ht, .cut hx⟩

theorem Stops.seq {P : Trace → SyntaxError → Prop} {result : Except SyntaxError (Parsed α n)}
    (ha : Runs a s (.read r)) (hb : b.Stops r P result) : (seq a b).Stops s P result := by
  cases result with
  | ok p => exact Runs.seq ha hb
  | error e => exact Fails.imp hb fun o _ hx => .seq ha hx

theorem Commits.stops {result : Except SyntaxError (Parsed α n)} (h : x.Commits s result) :
    x.Stops s Trace.Reports result := by
  cases result with
  | ok p => exact h
  | error e =>
    obtain ⟨t, ht, hx⟩ := h
    exact ⟨t, ht.reports, .inr hx⟩

theorem head?_ne_of_forall (h : ∀ cs, s = c :: cs → False) : s.head? ≠ some c := by
  intro hs
  obtain ⟨cs, hcs⟩ := List.head?_eq_some_iff.1 hs
  exact h cs hcs

/-! ## Tokens -/

theorem runs_gaps : Runs gaps s (.read (skipGap s)) :=
  .takeWhile

theorem takes_sign (c : Char) (s : List Char) :
    (sign c).Takes s [(skipGap s, .char c)] (sign? c s) := by
  rw [sign?]
  split
  · next d rest h =>
    have hchar : ∀ o, Runs (char c) (d :: rest) o → Runs (sign c) s o := by
      intro o ho
      rw [← h] at ho
      exact .seq runs_gaps ho
    split
    · next hc =>
      subst hc
      exact hchar _ .char
    · next hc =>
      rw [h]
      exact hchar _ (.char_refused (by simpa using hc))
  · next h => exact .seq runs_gaps (.char_refused (by simp [h]))

theorem runs_after_gap {s' : List Char} (hs : skipGap s' = skipGap s) (h : Runs (seq gaps b) s o) :
    Runs (seq gaps b) s' o := by
  have hb : Runs b (skipGap s) o := by
    cases h with
    | seq hgap hb =>
      cases hgap
      exact hb
    | seq_first hne hgap =>
      cases hgap
      cases hne
  exact .seq (hs ▸ runs_gaps) hb

theorem takes_namedSign (what : Expectation) (c : Char) (s : List Char) : (namedSign what c).Takes s
    [(skipGap s, .char c), (skipGap s, .context what)] (sign? c s) := by
  have hnamed : ∀ o, Runs (sign c) s o → Runs (namedSign what c) s (o.within (skipGap s) (.context what)) := by
    intro o ho
    cases ho with
    | seq hgap hc =>
      cases hgap
      exact .seq runs_gaps (.context hc)
    | seq_first hne hgap =>
      cases hgap
      cases hne
  have hsign := takes_sign c s
  generalize sign? c s = result at hsign ⊢
  cases result with
  | none => exact hnamed _ hsign
  | some p => exact hnamed _ hsign

theorem runs_optionalSign (c : Char) (s : List Char) :
    Runs (opt (sign c)) s (.read (optionalSign c s).rest) := by
  have hsign := takes_sign c s
  rw [optionalSign]
  split
  · next h =>
    rw [h] at hsign
    exact .opt hsign
  · next h =>
    rw [h] at hsign
    exact .opt hsign

theorem takes_identifier (s : List Char) :
    identifier.Takes s [(s, .kind .satisfy)] (identifier? s) := by
  cases s with
  | nil => exact .seq_first rfl (.satisfy_refused rfl)
  | cons c cs =>
    rw [identifier?]
    split
    · next hc => exact .seq (.satisfy hc) .takeWhile
    · next hc => exact .seq_first rfl (.satisfy_refused (by simpa using hc))

theorem runs_dottedParts (s : List Char) :
    Runs (many (seq (char '.') identifier)) s (.read (dottedParts s).rest) := by
  fun_induction dottedParts s with
  | case1 cs part rest hlt hpart ih =>
    have hidentifier := takes_identifier cs
    rw [hpart] at hidentifier
    exact .many (.seq .char hidentifier) (by simp at hlt ⊢; omega) ih
  | case2 cs hpart =>
    have hidentifier := takes_identifier cs
    rw [hpart] at hidentifier
    exact .many_last rfl (.seq .char hidentifier)
  | case3 s hdot =>
    exact .many_last rfl (.seq_first rfl (.char_refused (head?_ne_of_forall hdot)))

theorem takes_dottedName (s : List Char) :
    dottedName.Takes s [(s, .kind .satisfy)] (dottedName? s) := by
  have hfirst := takes_identifier s
  rw [dottedName?]
  cases h : identifier? s with
  | none =>
    rw [h] at hfirst
    exact .seq_first rfl hfirst
  | some p =>
    rw [h] at hfirst
    exact .seq hfirst (runs_dottedParts p.rest)

theorem takes_separator (s : List Char) : separator.Takes s
    [(skipGap s, .char ';'), (skipGap s, .kind .alternatives)] (separator? s) := by
  rw [separator?]
  split
  · next d rest h =>
    -- a gap in front of the separator is read first, and a refusal is located behind it
    have hchoice : ∀ o, Runs (orElse (char ',') (char ';')) (d :: rest) o →
        Runs separator s (o.exhausted (d :: rest)) := by
      intro o ho
      rw [← h] at ho ⊢
      exact .seq runs_gaps (.oneOf ho)
    split
    · next hd =>
      rcases hd with rfl | rfl
      · exact hchoice _ (.orElse_first rfl .char)
      · exact hchoice _ (.orElse (.char_refused (by simp)) .char)
    · next hd =>
      obtain ⟨hcomma, hsemi⟩ := not_or.1 hd
      rw [h]
      exact hchoice _ (.orElse (.char_refused (by simpa using hcomma))
        (.char_refused (by simpa using hsemi)))
  · next h =>
    have hnil : ∀ c, Runs (char c) (skipGap s) (.refused [(skipGap s, .char c)]) :=
      fun c => .char_refused (by simp [h])
    exact .seq runs_gaps (.oneOf (.orElse (hnil ',') (hnil ';')))

theorem runs_optionalSeparator (s : List Char) :
    Runs (opt separator) s (.read (optionalSeparator s).rest) := by
  have hseparator := takes_separator s
  rw [optionalSeparator]
  split
  · next h =>
    rw [h] at hseparator
    exact .opt hseparator
  · next h =>
    rw [h] at hseparator
    exact .opt hseparator

theorem runs_dimensions (u : TypeExpr) (s : List Char) :
    Runs (many (seq (sign '[') (sign ']'))) s (.read (dimensions u s).rest) := by
  fun_induction dimensions u s with
  | case1 u s _ afterOpen hlt hopen _ rest hlt' hclose ih =>
    have hbracket := takes_sign '[' s
    have hbracket' := takes_sign ']' afterOpen
    rw [hopen] at hbracket
    rw [hclose] at hbracket'
    exact .many (.seq hbracket hbracket') (Nat.ne_of_lt (hlt'.trans hlt)) ih
  | case2 u s _ afterOpen hlt hopen hclose =>
    have hbracket := takes_sign '[' s
    have hbracket' := takes_sign ']' afterOpen
    rw [hopen] at hbracket
    rw [hclose] at hbracket'
    exact .many_last rfl (.seq hbracket hbracket')
  | case3 u s hopen =>
    have hbracket := takes_sign '[' s
    rw [hopen] at hbracket
    exact .many_last rfl (.seq_first rfl hbracket)

theorem tries_literal (s : List Char) :
    literal.Tries s (· = [(s, .char '\''), (s, .kind .alternatives)]) (literal? s) := by
  cases s with
  | nil => exact ⟨_, rfl, .literal_refused rfl⟩
  | cons c cs =>
    rw [literal?]
    split
    · next hc =>
      split
      · next p hp =>
        have hread : (Literal.readRest? c cs).map Parsed.pair = some (p.value, p.rest) := by
          rw [hp]
          rfl
        exact Runs.literal hc hread
      · next hnone => exact ⟨_, ⟨⟨_, _, rfl⟩, _, rfl, rfl⟩, .literal_committed hc hnone⟩
    · next hc => exact ⟨_, rfl, .literal_refused (by simpa using hc)⟩

theorem tries_key (s : List Char) : key.Tries s (fun _ => True) (key? s) := by
  have hliteral := tries_literal s
  have hidentifier := takes_identifier s
  rw [key?]
  -- an identifier is read only where no literal begins
  cases h : literal? s with
  | error e =>
    rw [h] at hliteral
    obtain ⟨t, ht, hx⟩ := hliteral
    exact ⟨t, ht, .oneOf (.orElse_first rfl hx)⟩
  | ok result =>
    rw [h] at hliteral
    cases result with
    | some p => exact Runs.oneOf (.orElse_first rfl hliteral)
    | none =>
      obtain ⟨t, -, hx⟩ := hliteral
      cases h : identifier? s with
      | none =>
        rw [h] at hidentifier
        exact ⟨_, trivial, .oneOf (.orElse hx hidentifier)⟩
      | some p =>
        rw [h] at hidentifier
        exact Runs.oneOf (.orElse hx hidentifier)

theorem stops_objectEnd (exact : Bool) (s : List Char) :
    (objectEnd exact).Stops s Trace.Tells (closeObject exact s) := by
  rw [closeObject]
  split
  · next rest h => exact Runs.seq runs_gaps (.context (.tag h))
  · next h => exact ⟨_, ⟨⟨_, _, rfl⟩, _, rfl, rfl⟩, .inl (.seq runs_gaps (.context (.tag_refused h)))⟩

/-! ## Types -/

theorem runs_leadingBar {s' : List Char} (hs : skipGap s' = skipGap s) :
    ∃ r, Runs (opt (sign '|')) s' (.read r) ∧ skipGap r = skipGap (optionalSign '|' s).rest := by
  have hsign := takes_sign '|' s
  rw [optionalSign]
  split
  · next rest _ h =>
    rw [h] at hsign
    exact ⟨rest, .opt (runs_after_gap hs hsign), rfl⟩
  · next h =>
    rw [h] at hsign
    exact ⟨s', .opt (runs_after_gap hs hsign), hs⟩

theorem runs_object_refused (h : s.head? ≠ some '{') :
    Runs object s (.refused [(s, .kind .tag), (s, .kind .alternatives)]) := by
  have htag : ∀ exact, Runs (tag (TypeExpr.opening exact)) s (.refused [(s, .kind .tag)]) := by
    intro exact
    refine .tag_refused ?_
    cases exact <;> exact dropFront?_eq_none h
  exact .oneOf (.orElse (.seq_first rfl (htag true)) (.seq_first rfl (htag false)))

theorem properties_error (h : property? (skipGap s) = .error e) : Parser.properties s = .error e := by
  rw [Parser.properties, h]

theorem properties_none (h : property? (skipGap s) = .ok none) :
    Parser.properties s = .ok (.nothing [] s) := by
  rw [Parser.properties, h]

/-- What the readers of properties leave to a recognizer of what follows the first property. -/
def Goes (s : List Char) : Except SyntaxError (Parsed (List Property) n) → Prop
  | .ok ps => ps.value ≠ [] ∧ ∃ r, Runs (further separator (seq gaps property)) s (.read r) ∧
      Runs (opt separator) r (.read ps.rest)
  | .error e => ∃ t, t.Tells e ∧ Runs (further separator (seq gaps property)) s (.committed t)

mutual

theorem stops_type {s s' : List Char} (hs : skipGap s' = skipGap s) :
    (ref .type).Stops s' Trace.Tells (typeAt s) := by
  obtain ⟨r, hbar, hr⟩ := runs_leadingBar hs
  rw [typeAt]
  generalize optionalSign '|' s = leading at hr ⊢
  obtain ⟨_, s₁, h₁⟩ := leading
  dsimp only
  have hskip := Text.length_skipGap_le s₁
  have hgap : Runs gaps r (.read (skipGap s₁)) := by
    rw [← hr]
    exact runs_gaps
  have hmember := tries_member (skipGap s₁)
  generalize member? (skipGap s₁) = first at hmember ⊢
  rcases first with e | _ | ⟨first, s₂, h₂⟩
  · obtain ⟨t, ht, hx⟩ := hmember
    exact ⟨t, ht, .inr (.ref (.seq hbar (.seq_first rfl (.seq hgap hx))))⟩
  · obtain ⟨t, ht, hx⟩ := hmember
    exact ⟨t, ht, .inl (.ref (.seq hbar (.seq_first rfl (.seq hgap hx))))⟩
  · dsimp only
    have hfirst : Runs (.seq gaps (ref .member)) r (.read s₂) := .seq hgap hmember
    have hmore := stops_moreMembers s₂
    generalize Parser.moreMembers s₂ = others at hmore ⊢
    rcases others with e | ⟨others, s₃, h₃⟩
    · exact Fails.imp hmore fun o _ hx => .ref (.seq hbar (.seq hfirst hx))
    · exact Runs.ref (.seq hbar (.seq hfirst hmore))
termination_by 8 * s.length + 3

theorem stops_moreMembers (s : List Char) :
    moreMembers.Stops s Trace.Tells (Parser.moreMembers s) := by
  have hsign := takes_sign '|' s
  rw [Parser.moreMembers]
  generalize sign? '|' s = bar at hsign ⊢
  rcases bar with _ | ⟨_, s₁, h₁⟩
  · exact Runs.many_last rfl (.seq_first rfl (.seq_first rfl hsign))
  dsimp only
  have hskip := Text.length_skipGap_le s₁
  have hbar : Runs (.seq (sign '|') gaps) s (.read (skipGap s₁)) := .seq hsign runs_gaps
  have hmember := tries_member (skipGap s₁)
  generalize member? (skipGap s₁) = result at hmember ⊢
  rcases result with e | _ | ⟨first, s₂, h₂⟩
  · obtain ⟨t, ht, hx⟩ := hmember
    exact ⟨t, ht, .inr (.many_last rfl (.seq hbar hx))⟩
  · obtain ⟨t, -, hx⟩ := hmember
    exact Runs.many_last rfl (.seq hbar hx)
  · dsimp only
    -- a repetition goes on as long as its body takes something
    have hlt : s₂.length ≠ s.length := by omega
    have hmore := stops_moreMembers s₂
    generalize Parser.moreMembers s₂ = others at hmore ⊢
    rcases others with e | ⟨others, s₃, h₃⟩
    · exact Fails.imp hmore fun o _ hx => .many (.seq hbar hmember) hlt hx
    · exact Runs.many (.seq hbar hmember) hlt hmore
termination_by 8 * s.length + 3

theorem tries_member (s : List Char) :
    (ref .member).Tries s (·.Tells ⟨.expected .type, s⟩) (member? s) := by
  rw [member?.eq_def]
  split
  · next afterMark =>
    -- the measure is of the whole text
    have hlength : ('?' :: afterMark).length = afterMark.length + 1 := rfl
    have hskip := Text.length_skipGap_le afterMark
    have hmark : Runs (.seq (char '?') gaps) ('?' :: afterMark) (.read (skipGap afterMark)) :=
      .seq .char runs_gaps
    have hmember := tries_member (skipGap afterMark)
    generalize member? (skipGap afterMark) = result at hmember ⊢
    rcases result with e | _ | p
    · obtain ⟨t, ht, hx⟩ := hmember
      exact ⟨t, ht, .ref (.oneOf (.orElse_first rfl (.seq hmark hx)))⟩
    · -- with nothing behind it the mark is no type, and the trace ends in front of it
      obtain ⟨t, -, hx⟩ := hmember
      have hprimary := tries_primary ('?' :: afterMark)
      have hnone : primary? ('?' :: afterMark) = .ok none := by
        rw [primary?]
        · rw [literal?_eq_none rfl, dottedName?_eq_none rfl]
          rfl
        all_goals exact nofun
      rw [hnone] at hprimary
      obtain ⟨t', ht', hx'⟩ := hprimary
      exact ⟨_, ht'.append, .ref (.oneOf (.orElse (.seq hmark hx) (.seq_first rfl hx')))⟩
    · exact Runs.ref (.oneOf (.orElse_first rfl (.seq hmark hmember)))
  · next hne =>
    have hmark : Runs (.seq (.seq (char '?') gaps) (ref .member)) s (.refused [(s, .char '?')]) :=
      .seq_first rfl (.seq_first rfl (.char_refused (head?_ne_of_forall hne)))
    have hprimary := tries_primary s
    generalize primary? s = result at hprimary ⊢
    rcases result with e | _ | ⟨t, s₁, h₁⟩
    · obtain ⟨t, ht, hx⟩ := hprimary
      exact ⟨t, ht, .ref (.oneOf (.orElse hmark (.seq_first rfl hx)))⟩
    · obtain ⟨t, ht, hx⟩ := hprimary
      exact ⟨_, ht.append, .ref (.oneOf (.orElse hmark (.seq_first rfl hx)))⟩
    · exact Runs.ref (.oneOf (.orElse hmark (.seq hprimary (runs_dimensions t s₁))))
termination_by 8 * s.length + 2

theorem tries_primary (s : List Char) :
    primary.Tries s (·.Tells ⟨.expected .type, s⟩) (primary? s) := by
  rw [primary?.eq_def]
  -- the first sign decides: what stands in front of the alternative it opens is refused at once
  split
  · next rest =>
    have hopen : Runs (tag (TypeExpr.opening true)) ('{' :: '|' :: rest) (.read rest) := .tag rfl
    have hobject := commits_object true rest
    generalize Parser.object true rest = result at hobject ⊢
    rcases result with e | p
    · obtain ⟨t, ht, hx⟩ := hobject
      exact ⟨_, ht.append, .context (.oneOf (.orElse (.literal_refused rfl)
        (.orElse_first rfl (.oneOf (.orElse_first rfl (.seq hopen hx))))))⟩
    · exact Runs.context (.oneOf (.orElse (.literal_refused rfl)
        (.orElse_first rfl (.oneOf (.orElse_first rfl (.seq hopen hobject))))))
  · next rest hne =>
    have hexact : Runs (tag (TypeExpr.opening true)) ('{' :: rest)
        (.refused [('{' :: rest, .kind .tag)]) := by
      refine .tag_refused ?_
      have hbar : rest.head? ≠ some '|' := head?_ne_of_forall hne
      exact (dropFront?_eq_none hbar : dropFront? ['|'] rest = none)
    have hopen : Runs (tag (TypeExpr.opening false)) ('{' :: rest) (.read rest) := .tag rfl
    have hobject := commits_object false rest
    generalize Parser.object false rest = result at hobject ⊢
    rcases result with e | p
    · obtain ⟨t, ht, hx⟩ := hobject
      exact ⟨_, ht.append, .context (.oneOf (.orElse (.literal_refused rfl) (.orElse_first rfl
        (.oneOf (.orElse (.seq_first rfl hexact) (.seq hopen hx))))))⟩
    · exact Runs.context (.oneOf (.orElse (.literal_refused rfl) (.orElse_first rfl
        (.oneOf (.orElse (.seq_first rfl hexact) (.seq hopen hobject))))))
  · next rest =>
    -- behind the parenthesis a failure is final
    have hchoice : ∀ o, o.isRefused = false →
        Runs (cut (seq (ref .type) (namedSign .closingParen ')'))) rest o →
        Runs (orElse literal (orElse object (orElse parentheses dottedName))) ('(' :: rest) o :=
      fun o ho hx => .orElse (.literal_refused rfl)
        (.orElse (runs_object_refused (by simp)) (.orElse_first ho (.seq .char hx)))
    have htype := stops_type (s := rest) rfl
    generalize typeAt rest = result at htype ⊢
    rcases result with e | ⟨t, s₁, h₁⟩
    · obtain ⟨t, ht, hx | hx⟩ := htype
      · exact ⟨_, ht.append, .context (.oneOf (hchoice _ rfl (.cut (.seq_first rfl hx))))⟩
      · exact ⟨_, ht.append, .context (.oneOf (hchoice _ rfl (.cut (.seq_first rfl hx))))⟩
    · dsimp only
      have hclose := takes_namedSign .closingParen ')' s₁
      generalize sign? ')' s₁ = close at hclose ⊢
      rcases close with _ | ⟨_, s₂, h₂⟩
      · have ht : Trace.Tells [(skipGap s₁, .char ')'), (skipGap s₁, .context .closingParen)]
            ⟨.expected .closingParen, skipGap s₁⟩ := ⟨⟨_, _, rfl⟩, _, rfl, rfl⟩
        exact ⟨_, ht.append, .context (.oneOf (hchoice _ rfl (.cut (.seq htype hclose))))⟩
      · exact Runs.context (.oneOf (hchoice _ rfl (.cut (.seq htype hclose))))
  · next _ hbrace hparen =>
    have hobject := runs_object_refused (head?_ne_of_forall hbrace)
    have hparentheses : Runs parentheses s (.refused [(s, .char '(')]) :=
      .seq_first rfl (.char_refused (head?_ne_of_forall hparen))
    have hliteral := tries_literal s
    generalize literal? s = result at hliteral ⊢
    rcases result with e | _ | p
    · obtain ⟨t, ht, hx⟩ := hliteral
      exact ⟨_, ht.append, .context (.oneOf (.orElse_first rfl hx))⟩
    · obtain ⟨t, -, hx⟩ := hliteral
      have hname := takes_dottedName s
      generalize dottedName? s = name at hname ⊢
      rcases name with _ | p
      · exact ⟨_, ⟨⟨_, _, rfl⟩, _, rfl, rfl⟩, .context (.oneOf (.orElse hx (.orElse hobject
          (.orElse hparentheses hname))))⟩
      · exact Runs.context (.oneOf (.orElse hx (.orElse hobject (.orElse hparentheses hname))))
    · exact Runs.context (.oneOf (.orElse_first rfl hliteral))
termination_by 8 * s.length + 1

theorem commits_object (exact : Bool) (s : List Char) :
    (objectRest exact).Commits s (Parser.object exact s) := by
  have hskip := Text.length_skipGap_le s
  have hproperty := tries_property (skipGap s)
  refine Stops.cut ?_
  rw [Parser.object]
  -- the list of properties reads the first of them itself, and only then looks for a separator
  rcases hp : property? (skipGap s) with e | _ | ⟨p, s₁, h₁⟩
  · rw [hp] at hproperty
    rw [properties_error hp]
    obtain ⟨t, ht, hx⟩ := hproperty
    exact ⟨t, ht, .inr (.seq_first rfl (.separated_none rfl (.seq runs_gaps hx)))⟩
  · rw [hp] at hproperty
    rw [properties_none hp]
    obtain ⟨t, -, hx⟩ := hproperty
    have hnone : Runs properties s (.read s) := .separated_none rfl (.seq runs_gaps hx)
    have hlast := runs_optionalSeparator s
    rw [Parsed.nothing]
    dsimp only
    rw [if_pos List.isEmpty_nil]
    generalize optionalSeparator s = last at hlast ⊢
    obtain ⟨_, s₂, h₂⟩ := last
    dsimp only
    have hend := Stops.seq hnone (.seq hlast (stops_objectEnd exact s₂))
    generalize closeObject exact s₂ = close at hend ⊢
    rcases close with e | p <;> exact hend
  · rw [hp] at hproperty
    have hgoes := goes_properties hp
    generalize Parser.properties s = result at hgoes ⊢
    rcases result with e | ⟨ps, s₂, h₂⟩
    · obtain ⟨t, ht, hx⟩ := hgoes
      exact ⟨t, ht, .inr (.seq_first rfl (.separated (.seq runs_gaps hproperty) hx))⟩
    · obtain ⟨hne, r, hfurther, hlast⟩ := hgoes
      dsimp only
      rw [if_neg (by simpa using hne)]
      have hend := Stops.seq (.separated (.seq runs_gaps hproperty) hfurther)
        (.seq hlast (stops_objectEnd exact s₂))
      rw [Parsed.nothing]
      dsimp only
      generalize closeObject exact s₂ = close at hend ⊢
      rcases close with e | p <;> exact hend
termination_by 8 * s.length + 5

theorem goes_properties {s s₁ : List Char} {p : Property} {h₁ : s₁.length < (skipGap s).length}
    (hp : property? (skipGap s) = .ok (some ⟨p, s₁, h₁⟩)) : Goes s₁ (Parser.properties s) := by
  have hskip := Text.length_skipGap_le s
  have hseparator := takes_separator s₁
  rw [Parser.properties, hp]
  dsimp only
  generalize separator? s₁ = result at hseparator ⊢
  rcases result with _ | ⟨_, s₂, h₂⟩
  · exact ⟨List.cons_ne_nil _ _, s₁, .further_separator rfl hseparator, .opt hseparator⟩
  dsimp only
  have hlt : s₂.length ≠ s₁.length := Nat.ne_of_lt h₂
  have hskip₂ := Text.length_skipGap_le s₂
  have hproperty := tries_property (skipGap s₂)
  rcases hp₂ : property? (skipGap s₂) with e | _ | ⟨p₂, s₃, h₃⟩
  · rw [hp₂] at hproperty
    rw [properties_error hp₂]
    obtain ⟨t, ht, hx⟩ := hproperty
    exact ⟨t, ht, .further_last hseparator hlt rfl (.seq runs_gaps hx)⟩
  · -- the separator that was read here is left to what follows the list
    rw [hp₂] at hproperty
    rw [properties_none hp₂]
    obtain ⟨t, -, hx⟩ := hproperty
    exact ⟨List.cons_ne_nil _ _, s₁, .further_last hseparator hlt rfl (.seq runs_gaps hx),
      .opt hseparator⟩
  · rw [hp₂] at hproperty
    have hgoes := goes_properties hp₂
    generalize Parser.properties s₂ = others at hgoes ⊢
    rcases others with e | ⟨others, s₄, h₄⟩
    · obtain ⟨t, ht, hx⟩ := hgoes
      exact ⟨t, ht, .further hseparator hlt (.seq runs_gaps hproperty) hx⟩
    · obtain ⟨-, r, hfurther, hlast⟩ := hgoes
      exact ⟨List.cons_ne_nil _ _, r, .further hseparator hlt (.seq runs_gaps hproperty) hfurther,
        hlast⟩
termination_by 8 * s.length + 4

theorem tries_property (s : List Char) : property.Tries s (fun _ => True) (property? s) := by
  have hkey := tries_key s
  rw [property?]
  generalize key? s = result at hkey ⊢
  rcases result with e | _ | ⟨key, s₁, h₁⟩
  · obtain ⟨t, ht, hx⟩ := hkey
    exact ⟨t, ht, .seq_first rfl hx⟩
  · obtain ⟨t, -, hx⟩ := hkey
    exact ⟨t, trivial, .seq_first rfl hx⟩
  dsimp only
  have hmark := runs_optionalSign '?' s₁
  generalize optionalSign '?' s₁ = mark at hmark ⊢
  obtain ⟨marked, s₂, h₂⟩ := mark
  dsimp only
  have hcolon := takes_sign ':' s₂
  generalize sign? ':' s₂ = colon at hcolon ⊢
  rcases colon with _ | ⟨_, s₃, h₃⟩
  · exact ⟨_, trivial, .seq hkey (.seq hmark (.seq_first rfl hcolon))⟩
  dsimp only
  -- behind the colon a failure is final, and the gap is gone when the type is read
  have hskip : skipGap (skipGap s₃) = skipGap s₃ := Grammar.noGap_skipGap.skipGap_eq
  have hvalue : (cut (seq gaps (ref .type))).Commits s₃ (typeAt s₃) :=
    Stops.cut (.seq runs_gaps (stops_type hskip))
  generalize typeAt s₃ = value at hvalue ⊢
  rcases value with e | ⟨value, s₄, h₄⟩
  · obtain ⟨t, ht, hx⟩ := hvalue
    exact ⟨t, ht, .seq hkey (.seq hmark (.seq hcolon hx))⟩
  · exact Runs.seq hkey (.seq hmark (.seq hcolon hvalue))
termination_by 8 * s.length + 3

end

/-! ## Items -/

theorem runs_keyword_refused (h : Parser.keyword k s = .error e) :
    ∃ t, t.Reports e ∧ Runs (keyword k) s (.refused t) := by
  rw [Parser.keyword] at h
  split at h
  · next hnone =>
    cases h
    exact ⟨[(s, .kind .tag)], rfl, .seq_first rfl (.tag_refused hnone)⟩
  · next rest hrest =>
    split at h
    · next hword =>
      cases h
      cases rest with
      | nil => cases hword
      | cons c cs => exact ⟨[(c :: cs, .kind .not)], rfl, .seq (.tag hrest) (.not (.satisfy hword))⟩
    · cases h

theorem runs_keyword {h : r.length < s.length} (hk : Parser.keyword k s = .ok ⟨(), r, h⟩) :
    Runs (keyword k) s (.read r) := by
  rw [Parser.keyword] at hk
  split at hk
  · cases hk
  · next rest hrest =>
    split at hk
    · cases hk
    · next hword =>
      cases hk
      exact .seq (.tag hrest) (.not (.satisfy_refused (by simpa using hword)))

theorem runs_optionalKeyword (k : Keyword) (s : List Char) :
    Runs (opt (seq (keyword k) gap)) s (.read (optionalKeyword k s).rest) := by
  rw [optionalKeyword]
  split
  · next rest hlt hk =>
    have hkeyword := runs_keyword hk
    split
    · next hgap => exact .opt (.seq hkeyword (.gap hgap))
    · next hgap => exact .opt (.seq hkeyword (.gap_refused (by simpa using hgap)))
  · next e hk =>
    obtain ⟨t, -, hx⟩ := runs_keyword_refused hk
    exact .opt (.seq_first rfl hx)

theorem runs_modifier (s : List Char) : Runs modifier s (.read (Parser.modifier s).rest) :=
  .seq (runs_optionalKeyword .declare s) (runs_optionalKeyword .export _)

theorem stops_declaration (s : List Char) :
    declaration.Stops s Trace.Reports (Parser.declaration s) := by
  have hmodifier := runs_modifier s
  rw [Parser.declaration]
  generalize Parser.modifier s = result at hmodifier ⊢
  obtain ⟨m, s₁, h₁⟩ := result
  dsimp only
  rcases hk : Parser.keyword .type s₁ with e | ⟨_, s₂, h₂⟩
  · obtain ⟨t, ht, hx⟩ := runs_keyword_refused hk
    exact ⟨t, ht, .inl (.seq hmodifier (.seq_first rfl hx))⟩
  dsimp only
  -- from the keyword on the declaration is committed
  suffices h : declarationRest.Commits s₂ _ from
    Stops.seq hmodifier (.seq (runs_keyword hk) h.stops)
  refine Stops.cut ?_
  have hname := takes_identifier (skipGap s₂)
  generalize identifier? (skipGap s₂) = result at hname ⊢
  rcases result with _ | ⟨name, s₃, h₃⟩
  · exact ⟨_, ⟨⟨_, _, rfl⟩, _, rfl, rfl⟩, .inl (.seq_first rfl (.seq runs_gaps (.context hname)))⟩
  dsimp only
  have hname : Runs (.seq gaps (context .typeName identifier)) s₂ (.read s₃) :=
    .seq runs_gaps (.context hname)
  have hequals := takes_namedSign .equalsSign '=' s₃
  generalize sign? '=' s₃ = result at hequals ⊢
  rcases result with _ | ⟨_, s₄, h₄⟩
  · exact ⟨_, ⟨⟨_, _, rfl⟩, _, rfl, rfl⟩,
      .inl (.seq hname (.seq_first rfl (.seq_first rfl (.seq_first rfl hequals))))⟩
  dsimp only
  have hskip : skipGap (skipGap s₄) = skipGap s₄ := Grammar.noGap_skipGap.skipGap_eq
  have htype := Stops.seq (.seq hequals runs_gaps) (stops_type hskip)
  generalize typeAt s₄ = result at htype ⊢
  rcases result with e | ⟨t, s₅, h₅⟩
  · exact Fails.imp htype fun o ho hx => .seq hname (.seq_first ho hx)
  dsimp only
  have hsemi := runs_optionalSign ';' s₅
  generalize optionalSign ';' s₅ = result at hsemi ⊢
  obtain ⟨_, s₆, h₆⟩ := result
  exact Runs.seq hname (.seq htype hsemi)

theorem find?_untilBlockEnd (s : List Char) :
    s.tails.find? ['*', '/'].isPrefixOf = (untilBlockEnd s).map ('*' :: '/' :: ·.2) := by
  induction s using untilBlockEnd.induct with
  | case1 rest => simp [untilBlockEnd]
  | case2 c rest hne ih =>
    have hfront : ¬ ['*', '/'].isPrefixOf (c :: rest) := by
      rw [List.isPrefixOf_iff_prefix, List.cons_prefix_cons]
      rintro ⟨hc, r, hr⟩
      exact hne r hc.symm hr.symm
    rw [List.tails_cons, List.find?_cons_of_neg hfront, ih, untilBlockEnd]
    · cases untilBlockEnd rest <;> rfl
    · exact hne
  | case3 => rfl

theorem takes_comment (s : List Char) : ∃ t, comment.Takes s t (comment? s) := by
  rw [comment?.eq_def]
  split
  · next rest => exact ⟨[], Runs.oneOf (.orElse_first rfl (.seq (.tag rfl) .takeWhile))⟩
  · next rest =>
    have hline : Runs (.seq (tag ['/', '/']) (takeWhile (· ≠ '\n'))) ('/' :: '*' :: rest)
        (.refused [('/' :: '*' :: rest, .kind .tag)]) := .seq_first rfl (.tag_refused rfl)
    have hfind := find?_untilBlockEnd rest
    split
    · next text after h =>
      rw [h] at hfind
      exact ⟨[], Runs.oneOf (.orElse hline (.seq (.tag rfl) (.seq (.takeUntil hfind) (.tag rfl))))⟩
    · next h =>
      rw [h] at hfind
      exact ⟨_, Runs.oneOf (.orElse hline
        (.seq (.tag rfl) (.seq_first rfl (.takeUntil_refused hfind))))⟩
  · next hline hblock =>
    -- neither way to open a comment is there
    have htag : ∀ c, (∀ rest, s = '/' :: c :: rest → False) → dropFront? ['/', c] s = none := by
      intro c hc
      cases h : dropFront? ['/', c] s with
      | none => rfl
      | some rest => exact (hc rest (eq_append_of_dropFront? h)).elim
    exact ⟨_, Runs.oneOf (.orElse (.seq_first rfl (.tag_refused (htag _ hline)))
      (.seq_first rfl (.tag_refused (htag _ hblock))))⟩

end Recognizer

end ModelTypes
