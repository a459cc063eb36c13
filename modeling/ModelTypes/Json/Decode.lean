import ModelTypes.Json.Reading

/-!
# Decoding JSON

Decoders of the values that a text should hold. A record is an object of named fields, or an array
of them in order; its unknown fields are skipped. Of several problems the first in the text counts.
-/

namespace ModelTypes.Json

mutual

inductive Value where
  | null
  | bool (value : Bool)
  | number (value : Numeral)
  | string (value : String)
  | array (items : List Value)
  | object (members : List Entry)

structure Entry where
  key : String
  value : Value

end

instance : Inhabited Value := ⟨.null⟩

abbrev Decoder (α : Type) := Reading → Except Category α

def unexpected : Reading → Category
  | .broken problem => problem.wanted
  | .number n => if n.number?.isNone then .malformed else .mismatch
  | .string none => .malformed
  | _ => .mismatch

def text : Decoder String
  | .string (some s) => .ok s
  | r => .error (unexpected r)

def bool : Decoder Bool
  | .bool b => .ok b
  | r => .error (unexpected r)

/-- A whole number below `2 ^ 64`. -/
def natural : Decoder Nat
  | .number n =>
    match n.number? with
    | some (.natural k) => .ok k
    | some _ => .error .mismatch
    | none => .error .malformed
  | r => .error (unexpected r)

def optional (decode : Decoder α) : Decoder (Option α)
  | .null => .ok none
  | r => some <$> decode r

/-- Goes on if nothing broke off. -/
def finish (problem : Option Problem) (value : α) : Except Category α :=
  match problem with
  | none => .ok value
  | some p => .error p.wanted

def list (decode : Decoder α) : Decoder (List α)
  | .array items problem => do finish problem (← items.mapM decode)
  | r => .error (unexpected r)

mutual

/-- Skips a value, which need only be JSON. -/
def skip : Reading → Except Category Unit
  | .array items problem => do
    skipItems items
    skipRest problem
  | .object members problem => do
    skipMembers members
    skipRest problem
  | .broken problem => .error problem.skipped
  | _ => .ok ()

def skipItems : List Reading → Except Category Unit
  | [] => .ok ()
  | r :: rs => do
    skip r
    skipItems rs

def skipMembers : List Member → Except Category Unit
  | [] => .ok ()
  | ⟨_, r⟩ :: rs => do
    skip r
    skipMembers rs

def skipRest : Option Problem → Except Category Unit
  | none => .ok ()
  | some p => .error p.skipped

end

def maxDepth : Nat := 127

mutual

def anyValue (depth : Nat) : Reading → Except Category Value
  | .null => .ok .null
  | .bool b => .ok (.bool b)
  | .number n => if n.number?.isNone then .error .malformed else .ok (.number n)
  | .string (some s) => .ok (.string s)
  | .string none => .error .malformed
  | .array items problem =>
    if depth < maxDepth then do
      finish problem (.array (← anyItems (depth + 1) items))
    else .error .malformed
  | .object members problem =>
    if depth < maxDepth then do
      finish problem (.object (← anyMembers (depth + 1) members))
    else .error .malformed
  | .broken problem => .error problem.wanted

def anyItems (depth : Nat) : List Reading → Except Category (List Value)
  | [] => .ok []
  | r :: rs => do
    let v ← anyValue depth r
    return v :: (← anyItems depth rs)

def anyMembers (depth : Nat) : List Member → Except Category (List Entry)
  | [] => .ok []
  | ⟨none, _⟩ :: _ => .error .malformed
  | ⟨some key, r⟩ :: rs => do
    let v ← anyValue depth r
    return ⟨key, v⟩ :: (← anyMembers depth rs)

end

/-! ## Variants -/

/-- One of several named constants; an object with the name as its only key and null as its value
also stands for it. -/
def variant (names : List (String × α)) : Decoder α
  | .string (some name) => named name
  | .object [] (some problem) => .error problem.variant
  | .object (⟨none, _⟩ :: _) _ => .error .malformed
  | .object (⟨some name, content⟩ :: others) problem => do
    let value ← named name
    match content with
    | .null => .ok ()
    | r => .error (unexpected r)
    match others, problem with
    | [], none => .ok value
    | [], some p => .error p.variant
    | _ :: _, _ => .error .malformed
  | .broken problem => .error problem.variant
  | _ => .error .malformed
where
  named (name : String) : Except Category α :=
    match names.lookup name with
    | some value => .ok value
    | none => .error .mismatch

/-! ## Records -/

structure Field (σ : Type) where
  key : String
  aliases : List String := []
  required : Bool := false
  set : Reading → σ → Except Category σ

namespace Field

def of (key : String) (decode : Decoder α) (store : α → σ → σ) : Field σ where
  key := key
  set r s := (store · s) <$> decode r

def accepts (f : Field σ) (key : String) : Bool :=
  key == f.key || f.aliases.contains key

end Field

/-- Decodes the members of an object into `s`; `seen` holds the keys of the fields met before. -/
def recordMembers (fields : List (Field σ)) (seen : List String) (s : σ) :
    List Member → Except Category (List String × σ)
  | [] => .ok (seen, s)
  | ⟨none, _⟩ :: _ => .error .malformed
  | ⟨some key, r⟩ :: rest =>
    match fields.find? (·.accepts key) with
    | none => do
      skip r
      recordMembers fields seen s rest
    | some f =>
      if seen.contains f.key then .error .mismatch
      else do recordMembers fields (f.key :: seen) (← f.set r s) rest

def recordItems (fields : List (Field σ)) (s : σ) (items : List Reading)
    (problem : Option Problem) : Except Category σ :=
  match fields, items with
  | [], [] => finish problem s
  | [], _ :: _ => .error .malformed
  | f :: fs, r :: rs => do recordItems fs (← f.set r s) rs problem
  | f :: fs, [] => do
    finish problem ()
    if f.required then .error .mismatch else recordItems fs s [] problem

/-- A record; fields that are absent keep their value in `default`. -/
def record (fields : List (Field σ)) (default : σ) : Decoder σ
  | .object members problem => do
    let (seen, s) ← recordMembers fields [] default members
    finish problem ()
    if fields.all fun f => !f.required || seen.contains f.key then .ok s else .error .mismatch
  | .array items problem => recordItems fields default items problem
  | r => .error (unexpected r)

def decode (decode : Decoder α) (source : String) : Except Category α := do
  let (root, trailing) := Reader.document source.toList
  let value ← decode root
  if trailing then .error .malformed else .ok value

end ModelTypes.Json
