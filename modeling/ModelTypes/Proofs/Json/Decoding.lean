import Mathlib.Data.List.Nodup
import ModelTypes.Json.Decode
import ModelTypes.Proofs.Json.Grammar

/-!
# Decoding JSON

When decoders succeed and with what. A record does not depend on the order of its members: each
sets a field of its own, members for no field are skipped, and fields without a member keep what
they had.
-/

namespace ModelTypes.Json

/-! ## Nesting -/

/-- At most so many arrays and objects stand around one another in a value. -/
def Reading.Within : Nat → Reading → Prop
  | 0, .array .. | 0, .object .. => False
  | n + 1, .array items _ => ∀ r ∈ items, r.Within n
  | n + 1, .object members _ => ∀ m ∈ members, m.value.Within n
  | _, _ => True

/-! ## Skipping -/

theorem skipItems_iff {rs : List Reading} :
    skipItems rs = .ok () ↔ ∀ r ∈ rs, skip r = .ok () := by
  induction rs with
  | nil => simp [skipItems]
  | cons r rs ih =>
    rw [skipItems, List.forall_mem_cons, ← ih]
    cases skip r <;> simp [bind, Except.bind]

theorem skipMembers_iff {ms : List Member} :
    skipMembers ms = .ok () ↔ ∀ m ∈ ms, skip m.value = .ok () := by
  induction ms with
  | nil => simp [skipMembers]
  | cons m ms ih =>
    obtain ⟨key, r⟩ := m
    rw [skipMembers, List.forall_mem_cons, ← ih]
    cases skip r <;> simp [bind, Except.bind]

theorem skip_array {rs : List Reading} :
    skip (.array rs none) = .ok () ↔ ∀ r ∈ rs, skip r = .ok () := by
  rw [skip, ← skipItems_iff]
  cases skipItems rs <;> simp [bind, Except.bind, skipRest]

theorem skip_object {ms : List Member} :
    skip (.object ms none) = .ok () ↔ ∀ m ∈ ms, skip m.value = .ok () := by
  rw [skip, ← skipMembers_iff]
  cases skipMembers ms <;> simp [bind, Except.bind, skipRest]

mutual

theorem skip_value {u : List Char} {r : Reading} : ValueText u r → skip r = .ok ()
  | .null | .true | .false | .number _ | .string _ => rfl
  | .noItems _ | .noMembers _ => rfl
  | .array _ hu => skip_array.2 (skip_items hu)
  | .object _ hu => skip_object.2 (skip_members hu)

theorem skip_items {u : List Char} {rs : List Reading} :
    ItemsText u rs → ∀ r ∈ rs, skip r = .ok ()
  | .last hu _ => List.forall_mem_singleton.2 (skip_value hu)
  | .more hu _ _ hv => List.forall_mem_cons.2 ⟨skip_value hu, skip_items hv⟩

theorem skip_members {u : List Char} {ms : List Member} :
    MembersText u ms → ∀ m ∈ ms, skip m.value = .ok ()
  | .last hu _ => List.forall_mem_singleton.2 (skip_member hu)
  | .more hu _ _ hv => List.forall_mem_cons.2 ⟨skip_member hu, skip_members hv⟩

theorem skip_member {u : List Char} {m : Member} : MemberText u m → skip m.value = .ok ()
  | .member _ _ _ hv => skip_value hv

end

theorem skip_document {s : List Char} {r : Reading} (h : DocumentText s r) : skip r = .ok () := by
  cases h with
  | document _ hu _ => exact skip_value hu

/-! ## Records -/

section Records

variable {σ : Type} {fields : List (Field σ)} {ms : List Member} {seen : List String}

def fieldOf? (fields : List (Field σ)) (m : Member) : Option (Field σ) :=
  m.key.bind fun key => fields.find? (·.accepts key)

def given (fields : List (Field σ)) (ms : List Member) : List String :=
  ms.filterMap fun m => (fieldOf? fields m).map Field.key

/-- Every member sets its field, whatever was set before it: `part` holds the fields that were set
and leaves the others as they were. -/
theorem recordMembers_ok (part : List String → σ) (hkeys : ∀ m ∈ ms, m.key.isSome)
    (hskip : ∀ m ∈ ms, skip m.value = .ok ())
    (hset : ∀ m ∈ ms, ∀ f, fieldOf? fields m = some f →
      ∀ seen, f.set m.value (part seen) = .ok (part (f.key :: seen)))
    (honce : (given fields ms ++ seen).Nodup) :
    recordMembers fields seen (part seen) ms =
      .ok ((given fields ms).reverse ++ seen, part ((given fields ms).reverse ++ seen)) := by
  induction ms generalizing seen with
  | nil => rfl
  | cons m ms ih =>
    obtain ⟨key, r⟩ := m
    obtain ⟨key, rfl⟩ := Option.isSome_iff_exists.1 (hkeys _ List.mem_cons_self)
    obtain ⟨-, hkeys⟩ := List.forall_mem_cons.1 hkeys
    obtain ⟨hskipped, hskip⟩ := List.forall_mem_cons.1 hskip
    obtain ⟨hfield, hset⟩ := List.forall_mem_cons.1 hset
    have hfieldOf : fieldOf? fields ⟨some key, r⟩ = fields.find? (·.accepts key) := rfl
    rw [recordMembers]
    cases hfind : fields.find? (·.accepts key) with
    | none =>
      have hgiven : given fields (⟨some key, r⟩ :: ms) = given fields ms := by
        rw [given, List.filterMap_cons_none (by rw [hfieldOf, hfind]; rfl), ← given]
      rw [hgiven] at honce ⊢
      simp only [hskipped, bind, Except.bind]
      exact ih hkeys hskip hset honce
    | some f =>
      have hgiven : given fields (⟨some key, r⟩ :: ms) = f.key :: given fields ms := by
        rw [given, List.filterMap_cons_some (by rw [hfieldOf, hfind]; rfl), ← given]
      rw [hgiven] at honce ⊢
      have hseen : seen.contains f.key = false := by
        simp at honce
        simpa using honce.1.2
      have honce : (given fields ms ++ f.key :: seen).Nodup := by
        rwa [List.cons_append, ← List.perm_middle.nodup_iff] at honce
      simp only [hseen, hfield f (hfieldOf.trans hfind), bind, Except.bind]
      simpa using ih hkeys hskip hset honce

theorem mem_given {key : String} :
    key ∈ given fields ms ↔ ∃ m ∈ ms, ∃ f, fieldOf? fields m = some f ∧ f.key = key := by
  simp [given]

theorem nodup_given (hkeys : (ms.map Member.key).Nodup)
    (hinj : ∀ m ∈ ms, ∀ m' ∈ ms, ∀ f f', fieldOf? fields m = some f → fieldOf? fields m' = some f' →
      f.key = f'.key → m.key = m'.key) : (given fields ms).Nodup := by
  rw [given, List.Nodup, List.pairwise_filterMap]
  refine (List.pairwise_map.1 hkeys).imp_of_mem ?_
  intro m m' hm hm' hne key hkey key' hkey' heq
  obtain ⟨f, hf, rfl⟩ := Option.map_eq_some_iff.1 hkey
  obtain ⟨f', hf', rfl⟩ := Option.map_eq_some_iff.1 hkey'
  exact hne (hinj m hm m' hm' f f' hf hf' heq)

theorem record_ok (part : List String → σ) (hkeys : ∀ m ∈ ms, m.key.isSome)
    (honce : (given fields ms).Nodup) (hskip : ∀ m ∈ ms, skip m.value = .ok ())
    (hset : ∀ m ∈ ms, ∀ f, fieldOf? fields m = some f →
      ∀ seen, f.set m.value (part seen) = .ok (part (f.key :: seen)))
    (hrequired : ∀ f ∈ fields, f.required → f.key ∈ given fields ms) :
    record fields (part []) (.object ms none) = .ok (part (given fields ms).reverse) := by
  have hmembers := recordMembers_ok part hkeys hskip hset (by rwa [List.append_nil])
  rw [List.append_nil] at hmembers
  rw [record, hmembers]
  simpa [bind, Except.bind, finish] using hrequired

/-! ### Records without aliases -/

def Distinct (ms : List Member) : Prop :=
  (∀ m ∈ ms, m.key.isSome) ∧ (ms.map Member.key).Nodup

theorem accepts_iff {f : Field σ} (h : f.aliases = []) : f.accepts key ↔ key = f.key := by
  simp [Field.accepts, h]

theorem fieldOf?_eq_some {m : Member} {f : Field σ} (h : fieldOf? fields m = some f) :
    f ∈ fields ∧ ∃ key, m.key = some key ∧ f.accepts key := by
  obtain ⟨key, hkey, hfind⟩ := Option.bind_eq_some_iff.1 h
  exact ⟨List.mem_of_find?_eq_some hfind, key, hkey,
    List.find?_some (p := fun f : Field σ => f.accepts key) hfind⟩

theorem exists_fieldOf? {m : Member} {f : Field σ} (hf : f ∈ fields) (h : m.key = some f.key) :
    ∃ f', fieldOf? fields m = some f' := by
  rw [fieldOf?, h, Option.bind_some, ← Option.isSome_iff_exists, List.find?_isSome]
  exact ⟨f, hf, by simp [Field.accepts]⟩

variable (hplain : ∀ f ∈ fields, f.aliases = [])
include hplain

theorem key_of_fieldOf? {m : Member} {f : Field σ} (h : fieldOf? fields m = some f) :
    m.key = some f.key := by
  obtain ⟨hf, key, hkey, haccepts⟩ := fieldOf?_eq_some h
  rw [hkey, (accepts_iff (hplain f hf)).1 haccepts]

theorem mem_given_iff {f : Field σ} (hf : f ∈ fields) :
    f.key ∈ given fields ms ↔ ∃ r, ⟨some f.key, r⟩ ∈ ms := by
  rw [mem_given]
  constructor
  · rintro ⟨⟨key, r⟩, hm, f', hf', heq⟩
    have hkey := key_of_fieldOf? hplain hf'
    rw [heq] at hkey
    exact ⟨r, hkey ▸ hm⟩
  · rintro ⟨r, hm⟩
    obtain ⟨f', hf'⟩ := exists_fieldOf? (m := ⟨some f.key, r⟩) hf rfl
    exact ⟨_, hm, f', hf', (Option.some.inj (key_of_fieldOf? hplain hf')).symm⟩

/-- Each field is set from the member under its key, if there is one. A value `t` is read if it has
the defaults in all fields without a member. -/
theorem record_plain_ok {default t : σ} (part : List String → σ) (hdefault : default = part [])
    (hd : Distinct ms) (hskip : ∀ m ∈ ms, skip m.value = .ok ())
    (hset : ∀ f ∈ fields, ∀ r, ⟨some f.key, r⟩ ∈ ms →
      ∀ seen, f.set r (part seen) = .ok (part (f.key :: seen)))
    (hrequired : ∀ f ∈ fields, f.required → ∃ r, ⟨some f.key, r⟩ ∈ ms)
    (hpart : ∀ seen, (∀ f ∈ fields, f.key ∉ seen → ∀ r, ⟨some f.key, r⟩ ∉ ms) → part seen = t) :
    record fields default (.object ms none) = .ok t := by
  have honce : (given fields ms).Nodup := by
    refine nodup_given hd.2 ?_
    intro m hm m' hm' f f' hf hf' heq
    rw [key_of_fieldOf? hplain hf, key_of_fieldOf? hplain hf', heq]
  rw [hdefault, record_ok part hd.1 honce hskip ?set ?required, hpart]
  case set =>
    rintro ⟨key, r⟩ hm f hf
    obtain rfl := key_of_fieldOf? hplain hf
    exact hset f (fieldOf?_eq_some hf).1 r hm
  case required =>
    intro f hf hreq
    exact (mem_given_iff hplain hf).2 (hrequired f hf hreq)
  · intro f hf hnot r hr
    exact hnot (List.mem_reverse.2 ((mem_given_iff hplain hf).2 ⟨r, hr⟩))

end Records

/-! ## Lists -/

theorem mapM_ok {decode : Decoder α} {rs : List Reading} {vs : List α}
    (h : List.Forall₂ (fun r v => decode r = .ok v) rs vs) : rs.mapM decode = .ok vs := by
  induction h with
  | nil => rfl
  | cons hr _ ih =>
    rw [List.mapM_cons, hr, ih]
    rfl

theorem list_ok {decode : Decoder α} {rs : List Reading} {vs : List α}
    (h : List.Forall₂ (fun r v => decode r = .ok v) rs vs) :
    list decode (.array rs none) = .ok vs := by
  rw [list, mapM_ok h]
  rfl

/-! ## Any value -/

def Numeral.ofInt (k : Int) : Numeral :=
  ⟨k < 0, Nat.toDigits 10 k.natAbs, none, none⟩

theorem Numeral.isSome_number?_ofInt (hlow : -0x8000000000000000 ≤ k)
    (hhigh : k < 0x10000000000000000) : (ofInt k).number?.isSome := by
  have hvalue : Text.ofDigits (Nat.toDigits 10 k.natAbs) = k.natAbs := Nat.ofDigitChars_ten_toDigits
  by_cases hneg : k < 0
  · have hrange : 0 < k.natAbs ∧ k.natAbs ≤ 0x8000000000000000 := by omega
    simp [number?, ofInt, hvalue, hneg, hrange]
  · have hrange : k.natAbs < 0x10000000000000000 := by omega
    simp [number?, ofInt, hvalue, hneg, hrange]

mutual

/-- The value that a reading denotes: null, a boolean, a number of 64 bits, a text, or an array or
object of such values, in the order in which they are written. -/
inductive Denotes : Reading → Value → Prop
  | null : Denotes .null .null
  | bool : Denotes (.bool b) (.bool b)
  | integer : -0x8000000000000000 ≤ k → k < 0x10000000000000000 →
      Denotes (.number (.ofInt k)) (.number (.ofInt k))
  | string : Denotes (.string (some s)) (.string s)
  | array : DenotesItems rs vs → Denotes (.array rs none) (.array vs)
  | object : Distinct ms → DenotesMembers ms es → Denotes (.object ms none) (.object es)

inductive DenotesItems : List Reading → List Value → Prop
  | nil : DenotesItems [] []
  | cons : Denotes r v → DenotesItems rs vs → DenotesItems (r :: rs) (v :: vs)

inductive DenotesMembers : List Member → List Entry → Prop
  | nil : DenotesMembers [] []
  | cons : Denotes r v → DenotesMembers ms es →
      DenotesMembers (⟨some key, r⟩ :: ms) (⟨key, v⟩ :: es)

end

mutual

theorem anyValue_ok {r : Reading} {v : Value} {depth n : Nat} (h : Denotes r v) (hr : r.Within n)
    (hn : depth + n ≤ maxDepth) : anyValue depth r = .ok v := by
  cases h with
  | null | bool | string => rfl
  | integer hlow hhigh =>
    obtain ⟨x, hx⟩ := Option.isSome_iff_exists.1 (Numeral.isSome_number?_ofInt hlow hhigh)
    rw [anyValue, hx]
    rfl
  | array h =>
    -- a list within no depth does not exist
    cases n with
    | zero => exact hr.elim
    | succ n =>
      rw [anyValue, if_pos (by omega), anyItems_ok h hr (by omega)]
      rfl
  | object _ h =>
    cases n with
    | zero => exact hr.elim
    | succ n =>
      rw [anyValue, if_pos (by omega), anyMembers_ok h hr (by omega)]
      rfl

theorem anyItems_ok {rs : List Reading} {vs : List Value} {depth n : Nat} (h : DenotesItems rs vs)
    (hrs : ∀ r ∈ rs, r.Within n) (hn : depth + n ≤ maxDepth) : anyItems depth rs = .ok vs := by
  cases h with
  | nil => rfl
  | cons hr h =>
    obtain ⟨hfirst, hrs⟩ := List.forall_mem_cons.1 hrs
    rw [anyItems, anyValue_ok hr hfirst hn, anyItems_ok h hrs hn]
    rfl

theorem anyMembers_ok {ms : List Member} {es : List Entry} {depth n : Nat}
    (h : DenotesMembers ms es) (hms : ∀ m ∈ ms, m.value.Within n) (hn : depth + n ≤ maxDepth) :
    anyMembers depth ms = .ok es := by
  cases h with
  | nil => rfl
  | cons hr h =>
    obtain ⟨hfirst, hms⟩ := List.forall_mem_cons.1 hms
    rw [anyMembers, anyValue_ok hr hfirst hn, anyMembers_ok h hms hn]
    rfl

end

end ModelTypes.Json
