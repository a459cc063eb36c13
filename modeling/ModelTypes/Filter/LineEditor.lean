import ModelTypes.Filter.Pattern

/-!
# Line editor

A script of commands that is run on each line of a text: `s` substitutes, `d` deletes, `p` prints
and `q` ends the run. A command can be limited to some lines. Other commands, blocks of commands,
ranges between patterns and editing in place are left out.
-/

namespace ModelTypes.Filter

inductive LineAddress where
  | number (n : Nat)
  | last
  | fitting (p : Pattern)
  deriving DecidableEq, Repr

inductive LineSelection where
  | all
  | one (address : LineAddress)
  /-- The lines with numbers from one to another; no number means the last line. -/
  | range (first : Nat) (last : Option Nat)
  deriving DecidableEq, Repr

inductive ReplacementPart where
  | char (c : Char)
  | found
  deriving DecidableEq, Repr

inductive LineAction where
  | substitute (p : Pattern) (replacement : List ReplacementPart) (all print : Bool)
  | delete
  | print
  | quit
  deriving DecidableEq, Repr

structure LineCommand where
  selection : LineSelection
  inverted : Bool
  action : LineAction
  deriving DecidableEq, Repr

namespace LineEditor

/-! ## Reading scripts -/

/-- The text up to a mark that is not escaped, and the text after it; an escaped mark stands for
itself. -/
def untilMark? (mark : Char) : List Char → Option (List Char × List Char)
  | [] => none
  | '\\' :: c :: rest =>
    (untilMark? mark rest).map fun (text, after) =>
      (if c = mark then c :: text else '\\' :: c :: text, after)
  | c :: rest =>
    if c = mark then some ([], rest)
    else (untilMark? mark rest).map fun (text, after) => (c :: text, after)

/-- The parts of a replacement; groups have no meaning here. -/
def replacement? : List Char → Option (List ReplacementPart)
  | [] => some []
  | '\\' :: c :: rest => do
    if c.isDigit then none
    else return .char ((namedChar? c).getD c) :: (← replacement? rest)
  | '&' :: rest => do return .found :: (← replacement? rest)
  | c :: rest => do return .char c :: (← replacement? rest)

def isScriptSpace (c : Char) : Bool :=
  c == ' ' || c == '\t' || c == ';' || c == '\n'

def number? (s : List Char) : Option (Nat × List Char) :=
  match s.takeWhile Char.isDigit with
  | [] => none
  | digits => some (Text.ofDigits digits, s.dropWhile Char.isDigit)

def address? : List Char → Option (LineAddress × List Char)
  | '$' :: rest => some (.last, rest)
  | '/' :: rest => do
    let (source, after) ← untilMark? '/' rest
    return (.fitting (← Pattern.ofText? source), after)
  | s => (number? s).map fun (n, rest) => (.number n, rest)

def selection? (s : List Char) : Option (LineSelection × List Char) :=
  match address? s with
  | none => some (.all, s)
  | some (.number first, ',' :: '$' :: rest) => some (.range first none, rest)
  | some (.number first, ',' :: rest) =>
    (number? rest).map fun (last, rest) => (.range first (some last), rest)
  | some (_, ',' :: _) => none
  | some (address, rest) => some (.one address, rest)

def flags : List Char → (Bool × Bool) × List Char
  | 'g' :: rest =>
    let ((_, print), after) := flags rest
    ((true, print), after)
  | 'p' :: rest =>
    let ((all, _), after) := flags rest
    ((all, true), after)
  | rest => ((false, false), rest)

def action? : List Char → Option (LineAction × List Char)
  | 's' :: mark :: rest => do
    let (source, rest) ← untilMark? mark rest
    let (target, rest) ← untilMark? mark rest
    let ((all, print), rest) := flags rest
    return (.substitute (← Pattern.ofText? source) (← replacement? target) all print, rest)
  | 'd' :: rest => some (.delete, rest)
  | 'p' :: rest => some (.print, rest)
  | 'q' :: rest => some (.quit, rest)
  | _ => none

def commands? : Nat → List Char → Option (List LineCommand)
  | fuel, s =>
    match s.dropWhile isScriptSpace, fuel with
    | [], _ => some []
    | _, 0 => none
    | s, fuel + 1 => do
      let (selection, rest) ← selection? s
      let inverted := rest.head? == some '!'
      let (action, rest) ← action? (if inverted then rest.drop 1 else rest)
      let ended := rest.head?.all isScriptSpace
      if ended then return ⟨selection, inverted, action⟩ :: (← commands? fuel rest) else none

/-! ## Running scripts -/

structure State where
  number : Nat
  isLast : Bool
  line : List Char
  printed : List (List Char) := []
  deleted : Bool := false
  quit : Bool := false

def LineAddress.selects (s : State) : LineAddress → Bool
  | .number n => s.number == n
  | .last => s.isLast
  | .fitting p => p.occursIn true s.line

def LineSelection.selects (s : State) : LineSelection → Bool
  | .all => true
  | .one address => LineAddress.selects s address
  | .range first last => first ≤ s.number && last.all (s.number ≤ max first ·)

def expand (parts : List ReplacementPart) (found : List Char) : List Char :=
  parts.flatMap fun
    | .char c => [c]
    | .found => found

def runAction (s : State) : LineAction → State
  | .substitute p parts all print =>
    let (line, done) := p.replace all (expand parts) true false s.line
    if done then
      { s with line, printed := if print then s.printed ++ [line] else s.printed }
    else s
  | .delete => { s with deleted := true }
  | .print => { s with printed := s.printed ++ [s.line] }
  | .quit => { s with quit := true }

def runCommands (s : State) : List LineCommand → State
  | [] => s
  | command :: rest =>
    if s.deleted || s.quit then s
    else if LineSelection.selects s command.selection != command.inverted then
      runCommands (runAction s command.action) rest
    else runCommands s rest

/-- The output for the lines of a text, of which `number` have passed. -/
def runLines (silent : Bool) (commands : List LineCommand) (number : Nat) :
    List (List Char) → List Char
  | [] => []
  | full :: rest =>
    let ending := if full.getLast? = some '\n' then ['\n'] else []
    let line := if ending = [] then full else full.dropLast
    let s := runCommands { number := number + 1, isLast := rest.isEmpty, line } commands
    let last := if s.deleted || silent then [] else [s.line]
    let out := ['\n'].intercalate (s.printed ++ last) ++
      if s.printed ++ last = [] then [] else ending
    if s.quit then out else out ++ runLines silent commands (number + 1) rest

/-- Options before the script: `-n` prints only what commands print, `-e` stands before a script. -/
def arguments? (silent : Bool) (scripts : List String) : List String → Option (Bool × String)
  | "-n" :: rest => arguments? true scripts rest
  | "-e" :: script :: rest => arguments? silent (scripts ++ [script]) rest
  | [script] =>
    if scripts = [] ∧ !script.startsWith "-" then some (silent, script) else none
  | [] => if scripts = [] then none else some (silent, "\n".intercalate scripts)
  | _ => none

end LineEditor

open LineEditor in
def edit : Filter := fun arguments input =>
  match arguments? false [] arguments with
  | none => failure
  | some (silent, script) =>
    match commands? script.length script.toList with
    | none => failure
    | some commands => { output := runLines silent commands 0 (lines input) }

end ModelTypes.Filter
