import ModelTypes.Text.Parsed
import ModelTypes.Toml.Scalar
import ModelTypes.Toml.Table
import ModelTypes.Toml.Text

/-!
# TOML documents

Reading a document into its table. A text that is no document has none.
-/

namespace ModelTypes.Toml

def maxDepth : Nat := 80

def defineAll? : List (List String × Value) → Table → Option Table
  | [], t => some t
  | (keys, value) :: rest, t =>
    match keys.getLast? with
    | none => none
    | some key => t.define? keys.dropLast key value >>= defineAll? rest

mutual

/-- A value at the front of a text, and the text after it; `depth` bounds what nests in it. -/
def value? (depth : Nat) (s : List Char) : Option (Value × List Char) :=
  match s with
  | '[' :: rest =>
    match depth with
    | 0 => none
    | depth + 1 => do
      let (items, after) ← items? depth (rest.length + 1) rest
      return (.array items, after)
  | '\x7b' :: rest =>
    match depth with
    | 0 => none
    | depth + 1 => do
      let (entries, after) ←
        match skipBlanks rest with
        | '\x7d' :: after => some ([], after)
        | _ => entries? depth (rest.length + 1) rest
      let t ← defineAll? entries (.empty .braces)
      return (.table .braces t.entries, after)
  | 't' :: 'r' :: 'u' :: 'e' :: rest => some (.flag true, rest)
  | 'f' :: 'a' :: 'l' :: 's' :: 'e' :: rest => some (.flag false, rest)
  | s =>
    match string? s with
    | some (text, rest) => some (.text (String.ofList text), rest)
    | none => (scalar? s).map (.scalar, ·)
termination_by (depth, 0, 0)

def items? (depth fuel : Nat) (s : List Char) : Option (List Value × List Char) :=
  match skipLines s.length s with
  | ']' :: rest => some ([], rest)
  | s =>
    match fuel with
    | 0 => none
    | fuel + 1 => do
      let (value, rest) ← value? depth s
      match skipLines rest.length rest with
      | ',' :: rest =>
        let (values, after) ← items? depth fuel rest
        return (value :: values, after)
      | ']' :: rest => return ([value], rest)
      | _ => none
termination_by (depth, 1, fuel)

def entries? (depth fuel : Nat) (s : List Char) :
    Option (List (List String × Value) × List Char) :=
  match fuel with
  | 0 => none
  | fuel + 1 => do
    let (keys, rest) ← keys? s
    match rest with
    | '=' :: rest =>
      let (value, rest) ← value? depth (skipBlanks rest)
      match skipBlanks rest with
      | ',' :: rest =>
        let (entries, after) ← entries? depth fuel rest
        return ((keys, value) :: entries, after)
      | '\x7d' :: rest => return ([(keys, value)], rest)
      | _ => none
    | _ => none
termination_by (depth, 1, fuel)

end

/-! ## Lines -/

/-- The document so far and the path of the open table. -/
structure Progress where
  root : Table := .empty .header
  current : List String := []

def header? (p : Progress) (s : List Char) : Option (Progress × List Char) := do
  let repeated := s.head? == some '['
  let (keys, rest) ← keys? (if repeated then s.drop 1 else s)
  let key ← keys.getLast?
  let rest ← dropFront? (if repeated then "]]" else "]").toList rest
  let root ←
    if repeated then p.root.openNext? keys.dropLast key else p.root.openTable? keys.dropLast key
  return (⟨root, keys⟩, rest)

def entry? (p : Progress) (s : List Char) : Option (Progress × List Char) := do
  let (keys, rest) ← keys? s
  let key ← keys.getLast?
  match rest with
  | '=' :: rest =>
    let (value, rest) ← value? (maxDepth - 1) (skipBlanks rest)
    let root ← p.root.updateAt? .passing (Table.define? keys.dropLast key value) p.current
    return (⟨root, p.current⟩, rest)
  | _ => none

def lines? : Nat → Progress → List Char → Option Progress
  | fuel, p, s =>
    match skipLines s.length s, fuel with
    | [], _ => some p
    | _, 0 => none
    | s, fuel + 1 => do
      let (p, rest) ←
        match s with
        | '[' :: rest => header? p rest
        | s => entry? p s
      lines? fuel p (← lineEnd? rest)

/-- The table of a document; a mark of the byte order may stand before it. -/
def document? (source : String) : Option Table :=
  let s := match source.toList with
    | '\ufeff' :: rest => rest
    | s => s
  (lines? (s.length + 1) {} s).map (·.root)

end ModelTypes.Toml
