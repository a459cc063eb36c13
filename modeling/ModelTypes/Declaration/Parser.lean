import ModelTypes.Declaration.Basic
import ModelTypes.Declaration.Literal
import ModelTypes.Declaration.SyntaxError
import ModelTypes.Text.Gap
import ModelTypes.Text.Identifier

/-!
# Reading declaration files

A reader takes the text that is left. It gives `none` where its construct does not begin, so that
another can be tried, and an error where the text is committed to the construct and breaks off:
after the keyword `type`, an opening bracket or quote, and the colon of a property.
-/

namespace ModelTypes.Parser

open Text (isGap skipGap length_skipGap_le length_lt_of_skipGap_eq_cons)

/-! ## Tokens -/

def identifier? (s : List Char) : Option (Parsed (List Char) s.length) :=
  match s with
  | [] => none
  | c :: cs =>
    if Text.isIdentStart c then
      some (.run (c :: cs.takeWhile Text.isIdentRest) Text.isIdentRest c cs)
    else none

def dottedParts (s : List Char) : Parsed (List Char) (s.length + 1) :=
  match s with
  | '.' :: cs =>
    match identifier? cs with
    | some ⟨part, rest, h⟩ =>
      ((dottedParts rest).map ('.' :: part ++ ·)).widen (by simp only [List.length_cons]; omega)
    | none => .nothing [] _
  | s => .nothing [] s
termination_by s.length
decreasing_by simp only [List.length_cons]; omega

def dottedName? (s : List Char) : Option (Parsed (List Char) s.length) := do
  let ⟨first, rest, _⟩ ← identifier? s
  some (((dottedParts rest).map (first ++ ·)).widen (by omega))

inductive Keyword where
  | declare
  | «export»
  | type

def Keyword.text : Keyword → List Char
  | declare => "declare".toList
  | «export» => "export".toList
  | type => "type".toList

theorem Keyword.length_lt {k : Keyword} {s rest : List Char}
    (h : dropFront? k.text s = some rest) : rest.length < s.length :=
  length_lt_of_dropFront? h (by cases k <;> decide)

/-- A keyword that no identifier character follows. -/
def keyword (k : Keyword) (s : List Char) : Except SyntaxError (Parsed Unit s.length) :=
  match h : dropFront? k.text s with
  | none => .error ⟨.noKeyword, s⟩
  | some rest =>
    if rest.head?.any Text.isIdentRest then .error ⟨.keywordRunsOn, rest⟩
    else .ok ⟨(), rest, Keyword.length_lt h⟩

/-- A keyword and the gap that must follow it, or nothing. -/
def optionalKeyword (k : Keyword) (s : List Char) : Parsed Bool (s.length + 1) :=
  match keyword k s with
  | .ok ⟨_, rest, _⟩ =>
    if rest.head?.any isGap then
      ⟨true, skipGap rest, by have := length_skipGap_le rest; omega⟩
    else .nothing false s
  | .error _ => .nothing false s

def separator? (s : List Char) : Option (Parsed Unit s.length) :=
  match h : skipGap s with
  | c :: rest =>
    if c = ',' ∨ c = ';' then
      some ⟨(), rest, length_lt_of_skipGap_eq_cons h⟩
    else none
  | [] => none

def optionalSeparator (s : List Char) : Parsed Bool (s.length + 1) :=
  match separator? s with
  | some ⟨_, rest, _⟩ => ⟨true, rest, by omega⟩
  | none => .nothing false s

def sign? (c : Char) (s : List Char) : Option (Parsed Unit s.length) :=
  match h : skipGap s with
  | d :: rest =>
    if d = c then some ⟨(), rest, length_lt_of_skipGap_eq_cons h⟩
    else none
  | [] => none

def optionalSign (c : Char) (s : List Char) : Parsed Bool (s.length + 1) :=
  match sign? c s with
  | some ⟨_, rest, _⟩ => ⟨true, rest, by omega⟩
  | none => .nothing false s

/-! ## Types -/

def dimensions (t : TypeExpr) (s : List Char) : Parsed TypeExpr (s.length + 1) :=
  match sign? '[' s with
  | some ⟨_, afterOpen, _⟩ =>
    match sign? ']' afterOpen with
    | some ⟨_, rest, _⟩ => (dimensions (.array t) rest).widen (by omega)
    | none => .nothing t s
  | none => .nothing t s
termination_by s.length

def literal? (s : List Char) : Except SyntaxError (Option (Parsed (List Char) s.length)) :=
  match s with
  | c :: rest =>
    if Literal.isQuote c then
      match Literal.readRest? c rest with
      | some p => .ok (some (p.after c))
      | none => .error ⟨.expected .closedLiteral, c :: rest⟩
    else .ok none
  | [] => .ok none

def key? (s : List Char) : Except SyntaxError (Option (Parsed (List Char) s.length)) :=
  match literal? s with
  | .error e => .error e
  | .ok (some p) => .ok (some p)
  | .ok none => .ok (identifier? s)

def closeObject (exact : Bool) (s : List Char) : Except SyntaxError (Parsed Unit s.length) :=
  match h : dropFront? (TypeExpr.closing exact) (skipGap s) with
  | some rest =>
    .ok ⟨(), rest, Nat.lt_of_lt_of_le (length_lt_of_dropFront? h (by cases exact <;> decide))
      (length_skipGap_le s)⟩
  | none => .error ⟨.expected (.closingBrace exact), skipGap s⟩

mutual

/-- A type: members separated by `|`, one of which may also stand in front. -/
def typeAt (s : List Char) : Except SyntaxError (Parsed TypeExpr s.length) :=
  match optionalSign '|' s with
  | ⟨_, afterBar, hBar⟩ =>
    have hGap := length_skipGap_le afterBar
    match member? (skipGap afterBar) with
    | .error e => .error e
    | .ok none => .error ⟨.expected .type, skipGap afterBar⟩
    | .ok (some ⟨first, afterFirst, hFirst⟩) =>
      match moreMembers afterFirst with
      | .error e => .error e
      | .ok ⟨others, rest, hRest⟩ => .ok ⟨.ofMembers first others, rest, by omega⟩
termination_by 8 * s.length + 3

def moreMembers (s : List Char) : Except SyntaxError (Parsed (List TypeExpr) (s.length + 1)) :=
  match sign? '|' s with
  | none => .ok (.nothing [] s)
  | some ⟨_, afterBar, _⟩ =>
    have := length_skipGap_le afterBar
    match member? (skipGap afterBar) with
    | .error e => .error e
    | .ok none => .ok (.nothing [] s)
    | .ok (some ⟨t, afterMember, hMember⟩) =>
      match moreMembers afterMember with
      | .error e => .error e
      | .ok ⟨others, rest, _⟩ => .ok ⟨t :: others, rest, by omega⟩
termination_by 8 * s.length + 3

/-- A member of a union: a type with any number of `?` in front. -/
def member? (s : List Char) : Except SyntaxError (Option (Parsed TypeExpr s.length)) :=
  match s with
  | '?' :: afterMark =>
    have h := length_skipGap_le afterMark
    match member? (skipGap afterMark) with
    | .error e => .error e
    | .ok none => .ok none
    | .ok (some p) => .ok (some (((p.map .maybe).widen h).after '?'))
  | s =>
    match primary? s with
    | .error e => .error e
    | .ok none => .ok none
    | .ok (some ⟨t, rest, h⟩) => .ok (some ((dimensions t rest).widen (by omega)))
termination_by 8 * s.length + 2

def primary? (s : List Char) : Except SyntaxError (Option (Parsed TypeExpr s.length)) :=
  match s with
  | '{' :: '|' :: rest =>
    match object true rest with
    | .error e => .error e
    | .ok p => .ok (some ((p.after '|').after '{'))
  | '{' :: rest =>
    match object false rest with
    | .error e => .error e
    | .ok p => .ok (some (p.after '{'))
  | '(' :: rest =>
    match typeAt rest with
    | .error e => .error e
    | .ok ⟨t, afterType, h⟩ =>
      match sign? ')' afterType with
      | some ⟨_, rest', h'⟩ => .ok (some (.after '(' ⟨t, rest', Nat.lt_trans h' h⟩))
      | none => .error ⟨.expected .closingParen, skipGap afterType⟩
  | s =>
    match literal? s with
    | .error e => .error e
    | .ok (some p) => .ok (some (p.map (.literal ∘ String.ofList)))
    | .ok none => .ok ((dottedName? s).map (·.map (.named ∘ String.ofList)))
termination_by 8 * s.length + 1

def object (exact : Bool) (s : List Char) : Except SyntaxError (Parsed TypeExpr s.length) :=
  match properties s with
  | .error e => .error e
  | .ok ⟨ps, rest, h⟩ =>
    match if ps.isEmpty then optionalSeparator rest else .nothing false rest with
    | ⟨_, afterSeparator, _⟩ =>
      match closeObject exact afterSeparator with
      | .error e => .error e
      | .ok ⟨_, rest', _⟩ => .ok ⟨.object exact ps, rest', by omega⟩
termination_by 8 * s.length + 5

/-- Properties with a separator between them; one may also follow the last. -/
def properties (s : List Char) : Except SyntaxError (Parsed (List Property) (s.length + 1)) :=
  have hGap := length_skipGap_le s
  match property? (skipGap s) with
  | .error e => .error e
  | .ok none => .ok (.nothing [] s)
  | .ok (some ⟨p, afterProperty, hProperty⟩) =>
    match separator? afterProperty with
    | none => .ok ⟨[p], afterProperty, by omega⟩
    | some ⟨_, afterSeparator, hSeparator⟩ =>
      match properties afterSeparator with
      | .error e => .error e
      | .ok ⟨others, rest, _⟩ => .ok ⟨p :: others, rest, by omega⟩
termination_by 8 * s.length + 4

def property? (s : List Char) : Except SyntaxError (Option (Parsed Property s.length)) :=
  match key? s with
  | .error e => .error e
  | .ok none => .ok none
  | .ok (some ⟨key, afterKey, hKey⟩) =>
    match optionalSign '?' afterKey with
    | ⟨optional, afterMark, hMark⟩ =>
      match sign? ':' afterMark with
      | none => .ok none
      | some ⟨_, afterColon, hColon⟩ =>
        match typeAt afterColon with
        | .error e => .error e
        | .ok ⟨value, rest, _⟩ =>
          .ok (some ⟨⟨String.ofList key, optional, value⟩, rest, by omega⟩)
termination_by 8 * s.length + 3

end

/-! ## Items -/

def untilBlockEnd : List Char → Option (List Char × List Char)
  | '*' :: '/' :: rest => some ([], rest)
  | c :: rest => (untilBlockEnd rest).map fun (text, after) => (c :: text, after)
  | [] => none

theorem length_untilBlockEnd {s text after : List Char} (h : untilBlockEnd s = some (text, after)) :
    after.length < s.length := by
  induction s using untilBlockEnd.induct generalizing text with
  | case1 rest =>
    simp only [untilBlockEnd, Option.some.injEq, Prod.mk.injEq] at h
    rw [← h.2, List.length_cons, List.length_cons]
    omega
  | case2 c rest hne ih =>
    rw [untilBlockEnd] at h
    · simp only [Option.map_eq_some_iff, Prod.exists, Prod.mk.injEq] at h
      obtain ⟨text', after', h, -, rfl⟩ := h
      have := ih h
      simp; omega
    · exact hne
  | case3 => simp [untilBlockEnd] at h

/-- A comment to the end of the line, without the blanks at its end, or a block comment. -/
def comment? (s : List Char) : Option (Parsed Comment s.length) :=
  match s with
  | '/' :: '/' :: rest =>
    let text := Text.trimEnd (rest.takeWhile (· ≠ '\n'))
    some (.after '/' (.run (.line (String.ofList text)) (· ≠ '\n') '/' rest))
  | '/' :: '*' :: rest =>
    match h : untilBlockEnd rest with
    | some (text, after) =>
      some (.after '/' (.after '*' ⟨.block (String.ofList text), after, length_untilBlockEnd h⟩))
    | none => none
  | _ => none

def modifier (s : List Char) : Parsed Modifier (s.length + 1) :=
  match optionalKeyword .declare s with
  | ⟨declared, rest, _⟩ =>
    ((optionalKeyword .export rest).map (⟨declared, ·⟩)).widen (by omega)

def declaration (s : List Char) : Except SyntaxError (Parsed Item s.length) :=
  match modifier s with
  | ⟨modifier, afterModifier, _⟩ =>
    match keyword .type afterModifier with
    | .error e => .error e
    | .ok ⟨_, afterKeyword, _⟩ =>
      have := length_skipGap_le afterKeyword
      match identifier? (skipGap afterKeyword) with
      | none => .error ⟨.expected .typeName, skipGap afterKeyword⟩
      | some ⟨name, afterName, _⟩ =>
        match sign? '=' afterName with
        | none => .error ⟨.expected .equalsSign, skipGap afterName⟩
        | some ⟨_, afterEquals, _⟩ =>
          match typeAt afterEquals with
          | .error e => .error e
          | .ok ⟨type, afterType, _⟩ =>
            match optionalSign ';' afterType with
            | ⟨_, rest, _⟩ =>
              .ok ⟨.declaration modifier (String.ofList name) type, rest, by omega⟩

def item (s : List Char) : Except SyntaxError (Parsed Item s.length) :=
  match comment? s with
  | some p => .ok (p.map .comment)
  | none => declaration s

def items (s : List Char) : Except SyntaxError (List Item) :=
  match h : skipGap s with
  | [] => .ok []
  | c :: cs =>
    match item (c :: cs) with
    | .error e => .error e
    | .ok ⟨first, rest, hRest⟩ =>
      have : rest.length < s.length := by
        have := length_skipGap_le s
        simp only [h, List.length_cons] at this hRest
        omega
      match items rest with
      | .error e => .error e
      | .ok others => .ok (first :: others)
termination_by s.length

end ModelTypes.Parser

namespace ModelTypes.SourceFile

def parse (source : List Char) : Except ParseError SourceFile :=
  match Parser.items source with
  | .ok items => .ok (ofItems items)
  | .error e => .error (e.locate source)

end ModelTypes.SourceFile
