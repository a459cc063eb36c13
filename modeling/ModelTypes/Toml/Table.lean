/-!
# TOML tables

Tables grow as a document is read: headers open them, keys with dots open tables inside the one that
is open. A table that has been defined is not defined again, and nothing is put into a table that is
written as a value.
-/

namespace ModelTypes.Toml

inductive Origin where
  | header
  /-- The header of a table inside it. -/
  | passing
  | dotted
  | braces
  deriving DecidableEq, Repr

inductive Value where
  | text (s : String)
  | flag (b : Bool)
  /-- A number, a date or a time. -/
  | scalar
  | array (items : List Value)
  | table (origin : Origin) (entries : List (String × Value))
  /-- Tables under one header, the one that is open last. -/
  | tables (closed : List (List (String × Value))) (last : List (String × Value))

structure Table where
  origin : Origin
  entries : List (String × Value)

namespace Table

def empty (origin : Origin) : Table := ⟨origin, []⟩

def get? (t : Table) (key : String) : Option Value :=
  t.entries.lookup key

def put (t : Table) (key : String) (value : Value) : Table :=
  { t with entries := t.entries.filter (·.1 ≠ key) ++ [(key, value)] }

def toValue (t : Table) : Value :=
  .table t.origin t.entries

/-- Changes the table that a path leads to. Tables that are missing on the way get the given origin;
a path of a key with dots does not lead through tables that are defined already. -/
def updateAt? (missing : Origin) (change : Table → Option Table) :
    List String → Table → Option Table
  | [], t => change t
  | key :: path, t =>
    match t.get? key with
    | none => do
      let child ← updateAt? missing change path (empty missing)
      return t.put key child.toValue
    | some (.table origin entries) =>
      if origin = .braces ∨ (missing = .dotted ∧ origin = .header) then none
      else do
        let child ← updateAt? missing change path ⟨origin, entries⟩
        return t.put key child.toValue
    | some (.tables closed last) => do
      let child ← updateAt? missing change path ⟨.header, last⟩
      return t.put key (.tables closed child.entries)
    | some _ => none

def define? (path : List String) (key : String) (value : Value) (t : Table) : Option Table :=
  updateAt? .dotted (fun t =>
    if path ≠ [] ∧ t.origin ≠ .dotted then none
    else
      match t.get? key with
      | none => some (t.put key value)
      | some _ => none) path t

def openTable? (path : List String) (key : String) (t : Table) : Option Table :=
  updateAt? .passing (fun t =>
    match t.get? key with
    | none => some (t.put key (.table .header []))
    | some (.table .passing entries) => some (t.put key (.table .header entries))
    | some _ => none) path t

def openNext? (path : List String) (key : String) (t : Table) : Option Table :=
  updateAt? .passing (fun t =>
    match t.get? key with
    | none => some (t.put key (.tables [] []))
    | some (.tables closed last) => some (t.put key (.tables (closed ++ [last]) []))
    | some _ => none) path t

end Table

end ModelTypes.Toml
