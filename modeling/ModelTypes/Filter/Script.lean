import ModelTypes.Filter.LineEditor
import ModelTypes.Text.Parsed

/-!
# Filter scripts

A script runs filters one after another on what the ones before left of the input, or joined by
pipes. Its output is theirs, and it succeeds if the last filter does. Only the filters of `builtins`
can be run. Variables, expansions, compound commands, subshells, jobs and redirects to files are left
out.
-/

namespace ModelTypes.Filter

def builtins : List (String × Filter) :=
  [("cat", copy), ("head", head), ("tail", tail), ("tr", transliterate), ("sed", edit),
   ("echo", echo), ("printf", printf),
   ("true", fun _ input => { unread := input }),
   ("false", fun _ input => { unread := input, succeeded := false }),
   (":", fun _ input => { unread := input })]

/-- A filter by its name or its path in a directory of programs. -/
def named? (name : String) : Option Filter :=
  match builtins.lookup name with
  | some f => some f
  | none => builtins.findSome? fun (short, f) =>
      if name = "/bin/" ++ short ∨ name = "/usr/bin/" ++ short then some f else none

namespace Script

inductive Token where
  | word (text : List Char)
  | sign (text : String)
  deriving DecidableEq, Repr

/-- The operators, longer ones before those that they begin with. -/
def signs : List String :=
  ["&&", "||", "2>&1", "1>&2", ">&2", "2>", "1>", ";", "\n", "|", ">", "<"]

def sign? (s : List Char) : Option (String × List Char) :=
  signs.findSome? fun sign => (dropFront? sign.toList s).map (sign, ·)

def isSeparator (c : Char) : Bool :=
  c ∈ " \t\n;|&<>".toList

/-- What a script would have to expand. -/
def isSpecial (c : Char) : Bool :=
  c ∈ "$`*?()#~".toList

def word? : List Char → Option (List Char × List Char)
  | [] => some ([], [])
  | '\'' :: rest => quoted rest
  | '"' :: rest => doubleQuoted rest
  | ['\\'] => none
  | '\\' :: c :: rest => (word? rest).map fun (text, after) => (c :: text, after)
  | c :: rest =>
    if isSeparator c then some ([], c :: rest)
    else if isSpecial c then none
    else (word? rest).map fun (text, after) => (c :: text, after)
where
  quoted : List Char → Option (List Char × List Char)
    | [] => none
    | '\'' :: rest => word? rest
    | c :: rest => (quoted rest).map fun (text, after) => (c :: text, after)
  doubleQuoted : List Char → Option (List Char × List Char)
    | [] => none
    | '"' :: rest => word? rest
    | '\\' :: c :: rest =>
      (doubleQuoted rest).map fun (text, after) =>
        (if c ∈ "\"\\$`".toList then c :: text else '\\' :: c :: text, after)
    | c :: rest =>
      if c = '$' ∨ c = '`' then none
      else (doubleQuoted rest).map fun (text, after) => (c :: text, after)

def tokens? : Nat → List Char → Option (List Token)
  | fuel, s =>
    match s.dropWhile (fun c => c == ' ' || c == '\t'), fuel with
    | [], _ => some []
    | _, 0 => none
    | s, fuel + 1 =>
      match sign? s with
      | some (sign, rest) => (tokens? fuel rest).map (.sign sign :: ·)
      | none => do
        let (text, rest) ← word? s
        if rest.length < s.length then return .word text :: (← tokens? fuel rest) else none

structure Call where
  words : List String := []
  muted : Bool := false
  detached : Bool := false
  deriving DecidableEq, Repr

inductive Condition where
  | always
  | afterSuccess
  | afterFailure
  deriving DecidableEq, Repr

structure Pipeline where
  condition : Condition
  calls : List Call
  deriving DecidableEq, Repr

/-- Redirects to or from the null device, the only ones that there are. -/
def redirect? (c : Call) (sign : String) (target : List Char) : Option Call :=
  if target ≠ "/dev/null".toList then none
  else if sign = "<" then some { c with detached := true }
  else if sign = "2>" then some c
  else some { c with muted := true }

/-- The pipelines of a script. `calls` are those of the one that is being read, `call` the last of
them. -/
def pipelines? (condition : Condition) (calls : List Call) (call : Call) :
    List Token → Option (List Pipeline)
  | [] =>
    if call.words = [] then
      if calls = [] ∧ condition = .always then some [] else none
    else some [⟨condition, calls ++ [call]⟩]
  | .word text :: rest =>
    pipelines? condition calls { call with words := call.words ++ [String.ofList text] } rest
  | .sign sign :: rest =>
    if sign ∈ [">&2", "1>&2"] then pipelines? condition calls { call with muted := true } rest
    else if sign = "2>&1" then pipelines? condition calls call rest
    else if sign ∈ [">", "1>", "2>", "<"] then
      match rest with
      | .word target :: rest =>
        match redirect? call sign target with
        | some call => pipelines? condition calls call rest
        | none => none
      | _ => none
    else if call.words = [] then
      if sign = "\n" ∧ calls = [] then pipelines? condition [] {} rest else none
    else if sign = "|" then pipelines? condition (calls ++ [call]) {} rest
    else
      let next : Condition :=
        if sign = "&&" then .afterSuccess else if sign = "||" then .afterFailure else .always
      (pipelines? next [] {} rest).map (⟨condition, calls ++ [call]⟩ :: ·)

def runCall (c : Call) (input : List Char) : Outcome :=
  match c.words with
  | [] => failure
  | name :: arguments =>
    match named? name with
    | none => { unread := input, succeeded := false }
    | some f =>
      let r := f arguments (if c.detached then [] else input)
      { r with
        output := if c.muted then [] else r.output
        unread := if c.detached then input else r.unread }

def runCalls : List Call → List Char → Outcome
  | [], input => { unread := input }
  | [c], input => runCall c input
  | c :: rest, input =>
    let r := runCall c input
    { runCalls rest r.output with unread := r.unread }

def exit? (p : Pipeline) (succeeded : Bool) : Option Bool :=
  match p.calls with
  | [⟨["exit"], _, _⟩] => some succeeded
  | [⟨["exit", code], _, _⟩] => some (Text.natural? code.toList == some 0)
  | _ => none

def runPipelines (succeeded : Bool) : List Pipeline → List Char → Outcome
  | [], input => { unread := input, succeeded }
  | p :: rest, input =>
    let skipped := match p.condition with
      | .always => false
      | .afterSuccess => !succeeded
      | .afterFailure => succeeded
    if skipped then runPipelines succeeded rest input
    else
      match exit? p succeeded with
      | some ended => { unread := input, succeeded := ended }
      | none =>
        let r := runCalls p.calls input
        let after := runPipelines r.succeeded rest r.unread
        { after with output := r.output ++ after.output }

end Script

def script : Filter
  | "-c" :: source :: _, input =>
    match Script.tokens? source.length source.toList >>= Script.pipelines? .always [] {} with
    | some pipelines => Script.runPipelines true pipelines input
    | none => failure
  | _, _ => failure

/-- The output of a command on a text. Without a filter of that name it is as if the command had
failed. -/
def run? (program : String) (arguments : List String) (input : String) : Option String :=
  let filter? :=
    if program ∈ ["sh", "/bin/sh", "/usr/bin/sh", "bash", "/bin/bash"] then some script
    else named? program
  match filter? with
  | none => none
  | some f =>
    let r := f arguments input.toList
    if r.succeeded then some (String.ofList r.output) else none

end ModelTypes.Filter
