import ModelTypes.Filter.Basic

/-!
# Line patterns

Basic patterns of characters, sets and repetitions, which match the first stretch of a line that
fits and as much of it as they can. Groups, alternatives, counted repetitions and named classes are
left out.
-/

namespace ModelTypes.Filter

inductive CharClass where
  | only (c : Char)
  | any
  | oneOf (negated : Bool) (chars : List Char)
  deriving DecidableEq, Repr

namespace CharClass

def admits : CharClass → Char → Bool
  | only d, c => c == d
  | any, _ => true
  | oneOf negated chars, c => decide (c ∈ chars) != negated

end CharClass

structure Repeated where
  charClass : CharClass
  many : Bool
  deriving DecidableEq, Repr

structure Pattern where
  items : List Repeated
  atStart : Bool
  atEnd : Bool
  deriving DecidableEq, Repr

namespace Pattern

/-! ## Reading -/

/-- The part of a bracketed set before its end, and the text after it; a bracket that stands first
is part of the set. -/
def splitSet? : List Char → Option (List Char × List Char)
  | ']' :: rest =>
    let rest' := rest.dropWhile (· ≠ ']')
    if rest' = [] then none else some (']' :: rest.takeWhile (· ≠ ']'), rest'.drop 1)
  | s =>
    let rest := s.dropWhile (· ≠ ']')
    if rest = [] then none else some (s.takeWhile (· ≠ ']'), rest.drop 1)

def charClass? : List Char → Option (CharClass × List Char)
  | '.' :: rest => some (.any, rest)
  | '[' :: '^' :: rest => do
    let (set, after) ← splitSet? rest
    some (.oneOf true (charSet set), after)
  | '[' :: rest => do
    let (set, after) ← splitSet? rest
    some (.oneOf false (charSet set), after)
  | '\\' :: c :: rest =>
    if c.isAlphanum ∨ c ∈ "()\x7b\x7d|+?<>".toList then
      (namedChar? c).map fun d => (.only d, rest)
    else some (.only c, rest)
  | ['\\'] => none
  | c :: rest => some (.only c, rest)
  | [] => none

def items? : Nat → List Char → Option (List Repeated × Bool)
  | _, [] => some ([], false)
  | _, ['$'] => some ([], true)
  | 0, _ => none
  | fuel + 1, s => do
    let (charClass, rest) ← charClass? s
    match rest with
    | '*' :: rest =>
      let (items, atEnd) ← items? fuel rest
      some (⟨charClass, true⟩ :: items, atEnd)
    | rest =>
      let (items, atEnd) ← items? fuel rest
      some (⟨charClass, false⟩ :: items, atEnd)

def ofText? (source : List Char) : Option Pattern :=
  let (atStart, body) :=
    match source with
    | '^' :: rest => (true, rest)
    | _ => (false, source)
  (items? body.length body).map fun (items, atEnd) => ⟨items, atStart, atEnd⟩

/-! ## Matching -/

/-- The suffixes that are left after any number of characters of a class, the shortest first. -/
def suffixesAfter (charClass : CharClass) : List Char → List (List Char)
  | [] => [[]]
  | c :: rest =>
    if charClass.admits c then suffixesAfter charClass rest ++ [c :: rest] else [c :: rest]

def matchItems? (atEnd : Bool) : List Repeated → List Char → Option (List Char)
  | [], s => if atEnd && !s.isEmpty then none else some s
  | ⟨charClass, true⟩ :: items, s => (suffixesAfter charClass s).findSome? (matchItems? atEnd items)
  | ⟨charClass, false⟩ :: items, c :: rest =>
    if charClass.admits c then matchItems? atEnd items rest else none
  | ⟨_, false⟩ :: _, [] => none

/-- What is left after a match at the front of a text; `fresh` says that the line begins there. -/
def matchFront? (p : Pattern) (fresh : Bool) (s : List Char) : Option (List Char) :=
  if p.atStart && !fresh then none else matchItems? p.atEnd p.items s

def occursIn (p : Pattern) (fresh : Bool) (s : List Char) : Bool :=
  (p.matchFront? fresh s).isSome ||
    match s with
    | [] => false
    | _ :: rest => p.occursIn false rest

/-- Replaces the first match in a text, or every one, and says whether there was any. `fresh` says
that the line begins here, `touching` that a match ends here, after which no empty one counts. -/
def replace (p : Pattern) (all : Bool) (replacement : List Char → List Char)
    (fresh touching : Bool) (s : List Char) : List Char × Bool :=
  match p.matchFront? fresh s with
  | none => pass s
  | some rest =>
    let found := s.take (s.length - rest.length)
    if _ : rest.length < s.length then
      if all then (replacement found ++ (replace p all replacement false true rest).1, true)
      else (replacement found ++ rest, true)
    else if touching then pass s
    else if all then (replacement [] ++ (pass s).1, true)
    else (replacement [] ++ s, true)
termination_by (s.length, 1)
where
  pass (s : List Char) : List Char × Bool :=
    match s with
    | [] => ([], false)
    | c :: rest =>
      let (out, found) := replace p all replacement false false rest
      (c :: out, found)
  termination_by (s.length, 0)

end Pattern

end ModelTypes.Filter
