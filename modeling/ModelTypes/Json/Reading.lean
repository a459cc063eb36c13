import ModelTypes.Json.Numeral
import ModelTypes.Text.Digits
import ModelTypes.Text.Gap
import ModelTypes.Text.Parsed
import ModelTypes.Text.Surrogate

/-!
# JSON text as read

Reading a text gives a tree that holds all values before the first place where the text stops being
JSON, and the problem at that place. What is decoded from the tree from left to right meets the
values and the problem in the order of the text.
-/

namespace ModelTypes.Json

inductive Category where
  | malformed
  | mismatch
  | truncated
  deriving DecidableEq, Repr

/-- A place where the text stops being JSON, by what it counts as where the value is wanted, where it
is skipped and where the name of a variant is wanted. -/
structure Problem where
  wanted : Category
  skipped : Category := wanted
  variant : Category := wanted
  deriving DecidableEq, Repr

mutual

/-- A value as read. The problem of an array or object, if any, stands where a separator or the
closing bracket is due. -/
inductive Reading where
  | null
  | bool (value : Bool)
  | number (value : Numeral)
  /-- A string; one that escapes an unpaired surrogate denotes no text. -/
  | string (value : Option String)
  | array (items : List Reading) (problem : Option Problem)
  | object (members : List Member) (problem : Option Problem)
  | broken (problem : Problem)

structure Member where
  key : Option String
  value : Reading

end

namespace Reader

open Text (hexNumber? IsLeading IsTrailing ofPair skipGap length_skipGap_le
  length_lt_of_skipGap_eq_cons)

/-! ## Numbers -/

def lackingDigit (rest : List Char) : Problem where
  wanted := if rest.isEmpty then .truncated else .malformed
  skipped := .malformed
  variant := .malformed

/-- A sign, if there is one; true for a minus. -/
def sign (s : List Char) : Parsed Bool (s.length + 1) :=
  match s with
  | '-' :: rest => (Parsed.char true '-' rest).longer
  | '+' :: rest => (Parsed.char false '+' rest).longer
  | s => .nothing false s

def exponent (s : List Char) :
    Except Problem (Parsed (Option (Bool × List Char)) (s.length + 1)) :=
  match s with
  | c :: rest =>
    if c = 'e' ∨ c = 'E' then
      let ⟨minus, digits, h⟩ := sign rest
      if digits.head?.any Char.isDigit then
        .ok ((Parsed.upTo (some (minus, digits.takeWhile Char.isDigit)) Char.isDigit digits).widen
          (Nat.le_succ_of_le h))
      else .error (lackingDigit digits)
    else .ok (.nothing none _)
  | [] => .ok (.nothing none _)

def fraction (s : List Char) : Except Problem (Parsed (Option (List Char)) (s.length + 1)) :=
  match s with
  | '.' :: digits =>
    if digits.head?.any Char.isDigit then
      .ok (Parsed.upTo (some (digits.takeWhile Char.isDigit)) Char.isDigit digits).longer
    else .error (lackingDigit digits)
  | s => .ok (.nothing none s)

/-- The whole part of a number: a zero, or digits that begin with another one. -/
def whole (s : List Char) : Except Problem (Parsed (List Char) (s.length + 1)) :=
  let digits := s.takeWhile Char.isDigit
  if digits = [] then .error (lackingDigit s)
  else if digits.head? = some '0' ∧ digits.length ≠ 1 then .error { wanted := .malformed }
  else .ok (.upTo digits Char.isDigit s)

def numeral (negative : Bool) (s : List Char) :
    Except Problem (Parsed Numeral (s.length + 1)) := do
  let ⟨whole, afterWhole, h⟩ ← whole s
  let ⟨fraction, afterFraction, h'⟩ ← fraction afterWhole
  let ⟨exponent, rest, h''⟩ ← exponent afterFraction
  .ok ⟨⟨negative, whole, fraction, exponent⟩, rest, by omega⟩

/-! ## Strings -/

/-- The code unit that the four digits after `\u` name. Fewer than four further bytes are too few,
whatever they are. -/
def codeUnit (s : List Char) : Except Category (Parsed Nat s.length) :=
  match s with
  | a :: b :: c :: d :: rest =>
    match hexNumber? 0 [a, b, c, d] with
    | some unit => .ok (.after _ (.after _ (.after _ (.char unit _ rest))))
    | none => .error .malformed
  | short =>
    if (String.ofList short).utf8ByteSize < 4 then .error .truncated else .error .malformed

/-- What an escape denotes; an unpaired surrogate denotes nothing and carries the category of the
problem that it is. -/
inductive Escape where
  | char (c : Char)
  | unpaired (category : Category)

def secondUnit (first : Nat) (s : List Char) : Escape × Parsed Unit (s.length + 1) :=
  match s with
  | [] => (.unpaired .truncated, .nothing () _)
  | ['\\'] => (.unpaired .truncated, .nothing () _)
  | '\\' :: 'u' :: rest =>
    match codeUnit rest with
    | .error category => (.unpaired category, .nothing () _)
    | .ok ⟨second, after, _⟩ =>
      if IsTrailing second then
        (.char (Char.ofNat (ofPair first second)),
          ⟨(), after, by simp only [List.length_cons]; omega⟩)
      else (.unpaired .malformed, .nothing () _)
  | s => (.unpaired .malformed, .nothing () s)

def simpleEscape? : Char → Option Char
  | '"' => some '"'
  | '\\' => some '\\'
  | '/' => some '/'
  | 'b' => some '\x08'
  | 'f' => some '\x0c'
  | 'n' => some '\n'
  | 'r' => some '\r'
  | 't' => some '\t'
  | _ => none

def escape (s : List Char) : Except Category (Escape × Parsed Unit s.length) :=
  match s with
  | [] => .error .truncated
  | 'u' :: rest =>
    match codeUnit rest with
    | .error category => .error category
    | .ok ⟨unit, after, h⟩ =>
      if IsLeading unit then
        let (result, p) := secondUnit unit after
        .ok (result, (p.widen h).after 'u')
      else if IsTrailing unit then .ok (.unpaired .malformed, .after 'u' ⟨(), after, h⟩)
      else .ok (.char (Char.ofNat unit), .after 'u' ⟨(), after, h⟩)
  | c :: rest =>
    match simpleEscape? c with
    | some d => .ok (.char d, .char () c rest)
    | none => .error .malformed

def string (s : List Char) : Except Problem (Parsed (Option (List Char)) s.length) :=
  match s with
  | [] => .error { wanted := .truncated }
  | c :: rest =>
    if c = '"' then .ok (.char (some []) c rest)
    else if c = '\\' then
      match escape rest with
      | .error category => .error { wanted := category }
      | .ok (.char d, ⟨_, after, h⟩) =>
        match string after with
        | .error problem => .error problem
        | .ok p => .ok (((p.map (·.map (d :: ·))).within h).after c)
      | .ok (.unpaired category, ⟨_, after, h⟩) =>
        match string after with
        | .error problem => .error { problem with wanted := category, variant := category }
        | .ok p => .ok (((p.map fun _ => none).within h).after c)
    else if c.toNat < 0x20 then .error { wanted := .malformed }
    else
      match string rest with
      | .error problem => .error problem
      | .ok p => .ok ((p.map (·.map (c :: ·))).after c)
termination_by s.length

/-! ## Values -/

/-- A broken value; nothing after it is looked at. -/
def fail (problem : Problem) (s : List Char) : Parsed Reading (s.length + 1) :=
  .all (.broken problem)

def word (expected : List Char) (value : Reading) (s : List Char) : Parsed Reading (s.length + 1) :=
  match h : dropFront? expected s with
  | some rest => ⟨value, rest, Nat.lt_succ_of_le (length_le_of_dropFront? h)⟩
  | none => fail {
      wanted := if s.isPrefixOf expected then .truncated else .malformed
      variant := .malformed } s

def asVariantName : Reading → Category
  | .broken problem => problem.wanted
  | .number n => if n.number?.isNone then .malformed else .mismatch
  | _ => .mismatch

mutual

def value (s : List Char) : Parsed Reading (s.length + 1) :=
  match s with
  | [] => fail { wanted := .truncated } []
  | '"' :: rest =>
    match string rest with
    | .ok p => (p.map (.string ∘ Option.map String.ofList)).longer.longer
    | .error problem => fail problem _
  | '[' :: rest =>
    have h := length_skipGap_le rest
    if (skipGap rest).head? = some ']' then
      ⟨.array [] none, (skipGap rest).tail, by rw [List.length_tail, List.length_cons]; omega⟩
    else if skipGap rest = [] then .all (.array [] (some { wanted := .truncated }))
    else
      match items (skipGap rest) with
      | ⟨(found, problem), after, _⟩ =>
        ⟨.array found problem, after, by rw [List.length_cons]; omega⟩
  | '{' :: rest =>
    have h := length_skipGap_le rest
    if (skipGap rest).head? = some '}' then
      ⟨.object [] none, (skipGap rest).tail, by rw [List.length_tail, List.length_cons]; omega⟩
    else if skipGap rest = [] then .all (.object [] (some { wanted := .truncated }))
    else
      match members true (skipGap rest) with
      | ⟨(found, problem), after, _⟩ =>
        ⟨.object found problem, after, by rw [List.length_cons]; omega⟩
  | '-' :: rest =>
    match numeral true rest with
    | .ok p => (p.map .number).longer
    | .error problem => fail problem _
  | c :: rest =>
    if c.isDigit then
      match numeral false (c :: rest) with
      | .ok p => p.map .number
      | .error problem => fail problem _
    else if c = 'n' then word "null".toList .null (c :: rest)
    else if c = 't' then word "true".toList (.bool true) (c :: rest)
    else if c = 'f' then word "false".toList (.bool false) (c :: rest)
    else fail { wanted := .malformed } _
termination_by 4 * s.length

def items (s : List Char) : Parsed (List Reading × Option Problem) (s.length + 1) :=
  match value s with
  | ⟨first, afterFirst, hFirst⟩ =>
    match h : skipGap afterFirst with
    | [] => .all ([first], some { wanted := .truncated })
    | c :: rest =>
      have hRest : rest.length < s.length :=
        Nat.lt_of_lt_of_le (length_lt_of_skipGap_eq_cons h) (Nat.le_of_lt_succ hFirst)
      have hGap : (skipGap rest).length < s.length :=
        Nat.lt_of_le_of_lt (length_skipGap_le rest) hRest
      if c = ']' then ⟨([first], none), rest, Nat.lt_succ_of_lt hRest⟩
      else if c = ',' then
        ((items (skipGap rest)).map fun (others, problem) => (first :: others, problem)).widen
          (Nat.le_succ_of_le hGap)
      else ⟨([first], some { wanted := .malformed }), rest, Nat.lt_succ_of_lt hRest⟩
termination_by 4 * s.length + 1

/-- A member of an object, after the opening quote of its key. -/
def member (s : List Char) : Except Problem (Parsed Member s.length) :=
  match string s with
  | .error problem => .error problem
  | .ok ⟨key, afterKey, _⟩ =>
    let key := key.map String.ofList
    match h : skipGap afterKey with
    | [] => .ok ⟨⟨key, .broken { wanted := .truncated }⟩, [], by rw [List.length_nil]; omega⟩
    | c :: afterColon =>
      have hColon := length_lt_of_skipGap_eq_cons h
      if c = ':' then
        have := length_skipGap_le afterColon
        match value (skipGap afterColon) with
        | ⟨found, rest, _⟩ => .ok ⟨⟨key, found⟩, rest, by omega⟩
      else .ok ⟨⟨key, .broken { wanted := .malformed }⟩, [], by rw [List.length_nil]; omega⟩
termination_by 4 * s.length

/-- The members of an object from the next one on, to the closing brace; `first` says whether no
member stands before them. -/
def members (first : Bool) (s : List Char) :
    Parsed (List Member × Option Problem) (s.length + 1) :=
  match s with
  | [] =>
    let variant : Category := if first then .truncated else .malformed
    .all ([], some { wanted := .truncated, variant })
  | '"' :: afterQuote =>
    match member afterQuote with
    | .error problem => .all ([], some problem)
    | .ok ⟨found, afterMember, _⟩ =>
      match h : skipGap afterMember with
      | [] => .all ([found], some { wanted := .truncated })
      | c :: rest =>
        have hRest := length_lt_of_skipGap_eq_cons h
        if c = '}' then ⟨([found], none), rest, by rw [List.length_cons]; omega⟩
        else if c = ',' then
          have := length_skipGap_le rest
          match members false (skipGap rest) with
          | ⟨(others, problem), after, _⟩ =>
            ⟨(found :: others, problem), after, by rw [List.length_cons]; omega⟩
        else ⟨([found], some { wanted := .malformed }), rest, by rw [List.length_cons]; omega⟩
  | c :: rest =>
    let variant := if first then asVariantName (value (c :: rest)).value else .malformed
    .all ([], some { wanted := .malformed, variant })
termination_by 4 * s.length + 1

end

def document (s : List Char) : Reading × Bool :=
  let ⟨found, rest, _⟩ := value (skipGap s)
  (found, !(skipGap rest).isEmpty)

end Reader

end ModelTypes.Json
