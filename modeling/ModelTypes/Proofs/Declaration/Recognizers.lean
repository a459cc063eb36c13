import Mathlib.Data.List.Infix
import ModelTypes.Proofs.Declaration.Tokens

/-!
# Recognizers with error traces

The grammar of declaration files as an expression over tokens and combinators. A recognizer reads
the front of a text or leaves a trace: the places where it failed, the innermost first. It refuses a
text that another one may still read; once it is committed, its failure ends the reading.

Whatever the expression, the outcome is determined, no trace is empty, and every place in it is a
rest of the text (`Runs.unique` and `Runs.within`).
-/

namespace ModelTypes

open Literal (isQuote)
open Text (isGap skipGap)

/-! ## Traces -/

inductive FailureKind where
  | tag
  | satisfy
  | gap
  | takeUntil
  | not
  | alternatives
  | many
  | separatedList
  deriving DecidableEq, Repr

def FailureKind.text : FailureKind → String
  | tag => "Tag"
  | satisfy => "Satisfy"
  | gap => "Multiple spaces"
  | takeUntil => "Take until"
  | not => "Negation"
  | alternatives => "Alternative"
  | many => "Many0"
  | separatedList => "Separated list"

inductive Mark where
  | context (what : Expectation)
  | char (c : Char)
  | kind (k : FailureKind)
  deriving DecidableEq, Repr

namespace Mark

def text : Mark → String
  | context what => "expected " ++ what.text
  | char c => "expected '" ++ c.toString ++ "'"
  | kind k => "unexpected input (" ++ k.text ++ ")"

def context? : Mark → Option Expectation
  | context what => some what
  | _ => none

end Mark

/-- Places as the rests of the text that begin there. -/
abbrev Trace := List (List Char × Mark)

namespace Trace

/-- The name of the innermost construct in a trace that has one. -/
def expectation? (t : Trace) : Option Expectation :=
  t.findSome? (·.2.context?)

/-- What is reported of a trace: its first place, and the innermost name or else the first mark. An
empty trace tells nothing. -/
def report? : Trace → Option (List Char × String)
  | [] => none
  | (place, m) :: more =>
    some (place, match expectation? ((place, m) :: more) with
      | some what => (Mark.context what).text
      | none => m.text)

end Trace

inductive Outcome where
  | read (rest : List Char)
  | refused (trace : Trace)
  | committed (trace : Trace)
  | incomplete

namespace Outcome

def isRead : Outcome → Bool
  | read _ => true
  | _ => false

def isRefused : Outcome → Bool
  | refused _ => true
  | _ => false

def cut : Outcome → Outcome
  | refused t => committed t
  | o => o

def within (place : List Char) (m : Mark) : Outcome → Outcome
  | refused t => refused (t ++ [(place, m)])
  | committed t => committed (t ++ [(place, m)])
  | o => o

def exhausted (place : List Char) : Outcome → Outcome
  | refused t => refused (t ++ [(place, .kind .alternatives)])
  | o => o

def orNothing (s : List Char) : Outcome → Outcome
  | refused _ => read s
  | o => o

def negated (s : List Char) : Outcome → Outcome
  | read _ => refused [(s, .kind .not)]
  | refused _ => read s
  | o => o

end Outcome

/-! ## Recognizers -/

inductive Nonterminal where
  | type
  | member

inductive Recognizer where
  | tag (text : List Char)
  | char (c : Char)
  | satisfy (p : Char → Bool)
  | takeWhile (p : Char → Bool)
  | gap
  | takeUntil (text : List Char)
  | literal
  | seq (a b : Recognizer)
  | orElse (a b : Recognizer)
  | oneOf (a : Recognizer)
  | opt (a : Recognizer)
  | not (a : Recognizer)
  | cut (a : Recognizer)
  | context (what : Expectation) (a : Recognizer)
  | many (a : Recognizer)
  | separated (separator a : Recognizer)
  /-- What follows the first element of `separated`. -/
  | further (separator a : Recognizer)
  | ref (n : Nonterminal)

namespace Recognizer

def gaps : Recognizer :=
  takeWhile isGap

def sign (c : Char) : Recognizer :=
  seq gaps (char c)

def namedSign (what : Expectation) (c : Char) : Recognizer :=
  seq gaps (context what (char c))

def identifier : Recognizer :=
  seq (satisfy Text.isIdentStart) (takeWhile Text.isIdentRest)

def dottedName : Recognizer :=
  seq identifier (many (seq (char '.') identifier))

def keyword (k : Parser.Keyword) : Recognizer :=
  seq (tag k.text) (not (satisfy Text.isIdentRest))

def separator : Recognizer :=
  seq gaps (oneOf (orElse (char ',') (char ';')))

def key : Recognizer :=
  oneOf (orElse literal identifier)

def property : Recognizer :=
  seq key (seq (opt (sign '?')) (seq (sign ':') (cut (seq gaps (ref .type)))))

def properties : Recognizer :=
  separated separator (seq gaps property)

def objectEnd (exact : Bool) : Recognizer :=
  seq gaps (context (.closingBrace exact) (tag (TypeExpr.closing exact)))

def objectRest (exact : Bool) : Recognizer :=
  cut (seq properties (seq (opt separator) (objectEnd exact)))

/-- What follows the brace is cut, so that no other opening is tried after it. -/
def object : Recognizer :=
  oneOf (orElse (seq (tag (TypeExpr.opening true)) (objectRest true))
    (seq (tag (TypeExpr.opening false)) (objectRest false)))

def parentheses : Recognizer :=
  seq (char '(') (cut (seq (ref .type) (namedSign .closingParen ')')))

def primary : Recognizer :=
  context .type (oneOf (orElse literal (orElse object (orElse parentheses dottedName))))

def arrays : Recognizer :=
  seq primary (many (seq (sign '[') (sign ']')))

def member : Recognizer :=
  oneOf (orElse (seq (seq (char '?') gaps) (ref .member)) arrays)

def moreMembers : Recognizer :=
  many (seq (seq (sign '|') gaps) (ref .member))

def type : Recognizer :=
  seq (opt (sign '|')) (seq (seq gaps (ref .member)) moreMembers)

def modifier : Recognizer :=
  seq (opt (seq (keyword .declare) gap)) (opt (seq (keyword .export) gap))

def declarationRest : Recognizer :=
  cut (seq (seq gaps (context .typeName identifier))
    (seq (seq (seq (namedSign .equalsSign '=') gaps) (ref .type)) (opt (sign ';'))))

def declaration : Recognizer :=
  seq modifier (seq (keyword .type) declarationRest)

def comment : Recognizer :=
  oneOf (orElse (seq (tag ['/', '/']) (takeWhile (· ≠ '\n')))
    (seq (tag ['/', '*']) (seq (takeUntil ['*', '/']) (tag ['*', '/']))))

def item : Recognizer :=
  oneOf (orElse comment declaration)

def items : Recognizer :=
  many (seq gaps item)

def file : Recognizer :=
  seq items gaps

end Recognizer

def Nonterminal.body : Nonterminal → Recognizer
  | type => .type
  | member => .member

/-! ## Outcomes -/

/-- The outcome of a recognizer on a text. A repetition whose element reads nothing is stuck, and
refuses. -/
inductive Runs : Recognizer → List Char → Outcome → Prop
  | tag : dropFront? text s = some r → Runs (.tag text) s (.read r)
  | tag_refused : dropFront? text s = none → Runs (.tag text) s (.refused [(s, .kind .tag)])
  | char : Runs (.char c) (c :: r) (.read r)
  | char_refused : s.head? ≠ some c → Runs (.char c) s (.refused [(s, .char c)])
  | satisfy : p c → Runs (.satisfy p) (c :: r) (.read r)
  | satisfy_refused : s.head?.any p = false → Runs (.satisfy p) s (.refused [(s, .kind .satisfy)])
  | takeWhile : Runs (.takeWhile p) s (.read (s.dropWhile p))
  | gap : s.head?.any isGap → Runs .gap s (.read (skipGap s))
  | gap_refused : s.head?.any isGap = false → Runs .gap s (.refused [(s, .kind .gap)])
  | takeUntil : s.tails.find? text.isPrefixOf = some r → Runs (.takeUntil text) s (.read r)
  | takeUntil_refused : s.tails.find? text.isPrefixOf = none →
      Runs (.takeUntil text) s (.refused [(s, .kind .takeUntil)])
  | literal : isQuote c → (Literal.readRest? c s).map Parsed.pair = some (v, r) →
      Runs .literal (c :: s) (.read r)
  | literal_refused : s.head?.any isQuote = false →
      Runs .literal s (.refused [(s, .char '\''), (s, .kind .alternatives)])
  | literal_committed : isQuote c → Literal.readRest? c s = none →
      Runs .literal (c :: s) (.committed [(c :: s, .context .closedLiteral)])
  | seq : Runs a s (.read r) → Runs b r o → Runs (.seq a b) s o
  | seq_first : o.isRead = false → Runs a s o → Runs (.seq a b) s o
  | orElse : Runs a s (.refused t) → Runs b s o → Runs (.orElse a b) s o
  | orElse_first : o.isRefused = false → Runs a s o → Runs (.orElse a b) s o
  | oneOf : Runs a s o → Runs (.oneOf a) s (o.exhausted s)
  | opt : Runs a s o → Runs (.opt a) s (o.orNothing s)
  | not : Runs a s o → Runs (.not a) s (o.negated s)
  | cut : Runs a s o → Runs (.cut a) s o.cut
  | context : Runs a s o → Runs (.context what a) s (o.within s (.context what))
  | many : Runs a s (.read r) → r.length ≠ s.length → Runs (.many a) r o → Runs (.many a) s o
  | many_stuck : Runs a s (.read r) → r.length = s.length →
      Runs (.many a) s (.refused [(s, .kind .many)])
  | many_last : o.isRead = false → Runs a s o → Runs (.many a) s (o.orNothing s)
  | separated : Runs a s (.read r) → Runs (.further b a) r o → Runs (.separated b a) s o
  | separated_none : o.isRead = false → Runs a s o → Runs (.separated b a) s (o.orNothing s)
  | further : Runs b s (.read r) → r.length ≠ s.length → Runs a r (.read r') →
      Runs (.further b a) r' o → Runs (.further b a) s o
  | further_stuck : Runs b s (.read r) → r.length = s.length →
      Runs (.further b a) s (.refused [(r, .kind .separatedList)])
  | further_separator : o.isRead = false → Runs b s o → Runs (.further b a) s (o.orNothing s)
  /-- A separator with no element after it is left to what follows. -/
  | further_last : Runs b s (.read r) → r.length ≠ s.length → o.isRead = false → Runs a r o →
      Runs (.further b a) s (o.orNothing s)
  | ref : Runs n.body s o → Runs (.ref n) s o

/-! ## Places -/

namespace Outcome

/-- The rest is a rest of the text, and so is every place in a trace, of which there is one. -/
def In (s : List Char) : Outcome → Prop
  | read r => r <:+ s
  | refused t | committed t => t ≠ [] ∧ ∀ p ∈ t, p.1 <:+ s
  | incomplete => False

variable {o : Outcome} {s r : List Char} {m : Mark}

theorem In.trans (h : o.In r) (hr : r <:+ s) : o.In s := by
  cases o with
  | read r' => exact List.IsSuffix.trans h hr
  | refused t | committed t => exact ⟨h.1, fun p hp => (h.2 p hp).trans hr⟩
  | incomplete => exact h

theorem In.cut (h : o.In s) : o.cut.In s := by
  cases o <;> exact h

theorem in_trace (ht : ∀ p ∈ t, p.1 <:+ s) : ∀ p ∈ t ++ [(s, m)], p.1 <:+ s :=
  List.forall_mem_append.2 ⟨ht, List.forall_mem_singleton.2 (List.suffix_refl s)⟩

theorem In.within (h : o.In s) : (o.within s m).In s := by
  cases o with
  | refused t | committed t => exact ⟨by simp, in_trace h.2⟩
  | read r | incomplete => exact h

theorem In.exhausted (h : o.In s) : (o.exhausted s).In s := by
  cases o with
  | refused t => exact ⟨by simp, in_trace h.2⟩
  | read r | committed t | incomplete => exact h

theorem In.orNothing (h : o.In r) (hr : r <:+ s) : (o.orNothing s).In s := by
  cases o with
  | refused t => exact List.suffix_refl s
  | read r' | committed t | incomplete => exact h.trans hr

theorem In.negated (h : o.In s) : (o.negated s).In s := by
  cases o with
  | refused t => exact List.suffix_refl s
  | read r => exact ⟨by simp, List.forall_mem_singleton.2 (List.suffix_refl s)⟩
  | committed t | incomplete => exact h

theorem in_refused_singleton (h : r <:+ s) : (refused [(r, m)]).In s :=
  ⟨by simp, List.forall_mem_singleton.2 h⟩

end Outcome

variable {x : Recognizer} {s : List Char} {o o' : Outcome}

theorem Runs.within (h : Runs x s o) : o.In s := by
  induction h with
  | tag h =>
    rw [eq_append_of_dropFront? h]
    exact List.suffix_append _ _
  | char | satisfy => exact List.suffix_cons _ _
  | takeWhile | gap => exact List.dropWhile_suffix _
  | takeUntil h => exact (List.mem_tails _ _).1 (List.mem_of_find?_eq_some h)
  | tag_refused | char_refused | satisfy_refused | gap_refused | takeUntil_refused =>
    exact Outcome.in_refused_singleton (List.suffix_refl _)
  | literal hc h =>
    obtain ⟨u, -, rfl⟩ := (Literal.readRest?_iff hc).1 h
    exact ((List.suffix_cons _ _).trans (List.suffix_append _ _)).trans (List.suffix_cons _ _)
  | literal_refused _ => exact ⟨by simp, by simp⟩
  | literal_committed _ _ => exact ⟨by simp, by simp⟩
  | seq _ _ iha ihb => exact ihb.trans iha
  | seq_first _ _ ih | orElse_first _ _ ih | ref _ ih => exact ih
  | orElse _ _ _ ihb => exact ihb
  | oneOf _ ih => exact ih.exhausted
  | opt _ ih | many_last _ _ ih | separated_none _ _ ih | further_separator _ _ ih =>
    exact ih.orNothing (List.suffix_refl _)
  | not _ ih => exact ih.negated
  | cut _ ih => exact ih.cut
  | context _ ih => exact ih.within
  | many _ _ _ iha ihb | separated _ _ iha ihb => exact ihb.trans iha
  | many_stuck => exact Outcome.in_refused_singleton (List.suffix_refl _)
  | further _ _ _ _ ihb iha ih => exact (ih.trans iha).trans ihb
  | further_stuck _ _ ih => exact Outcome.in_refused_singleton ih
  | further_last _ _ _ _ ihb iha => exact iha.orNothing ihb

theorem Runs.unique (h : Runs x s o) (h' : Runs x s o') : o = o' := by
  induction h generalizing o' <;> cases h' <;> grind [Outcome.isRead, Outcome.isRefused]

end ModelTypes
