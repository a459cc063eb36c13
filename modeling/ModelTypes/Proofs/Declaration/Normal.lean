import ModelTypes.Declaration.Printer
import ModelTypes.Proofs.Declaration.Grammar

/-!
# Normal trees

A printed type has no parentheses around the members of a union, so nested unions come out as one
and a union of one member as that member. Normalizing a tree does the same to it; the trees that the
grammar spells are already normal.
-/

namespace ModelTypes.TypeExpr

/-! ## Unions -/

theorem members_of_not_isUnion {t : TypeExpr} (h : t.isUnion = false) : t.members = [t] := by
  cases t <;> first | rfl | cases h

theorem members_ofMembers {t : TypeExpr} {ts : List TypeExpr} :
    (ofMembers t ts).members = (t :: ts).flatMap members := by
  cases ts with
  | nil => simp [ofMembers]
  | cons t' ts => rfl

theorem flatMap_members {ts : List TypeExpr} (h : ∀ t ∈ ts, t.isUnion = false) :
    ts.flatMap members = ts := by
  induction ts with
  | nil => rfl
  | cons t ts ih =>
    rw [List.flatMap_cons, members_of_not_isUnion (h t (by simp)),
      ih fun t' ht' => h t' (by simp [ht'])]
    rfl

/-! ## Trees that can be printed -/

/-- Named types are dotted names and unions have members. -/
inductive Printable : TypeExpr → Prop
  | named : Grammar.DottedName name.toList → Printable (.named name)
  | literal : Printable (.literal value)
  | maybe : Printable t → Printable (.maybe t)
  | array : Printable t → Printable (.array t)
  | union : ms ≠ [] → (∀ m ∈ ms, Printable m) → Printable (.union ms)
  | object : (∀ p ∈ ps, Printable (Property.value p)) → Printable (.object exact ps)

/-- Trees that can be printed and whose unions have two members or more, none of them a union. -/
inductive Normal : TypeExpr → Prop
  | named : Grammar.DottedName name.toList → Normal (.named name)
  | literal : Normal (.literal value)
  | maybe : Normal t → Normal (.maybe t)
  | array : Normal t → Normal (.array t)
  | union : 2 ≤ ms.length → (∀ m ∈ ms, isUnion m = false) → (∀ m ∈ ms, Normal m) →
      Normal (.union ms)
  | object : (∀ p ∈ ps, Normal (Property.value p)) → Normal (.object exact ps)

mutual

/-- The tree with the members of nested unions in the outermost one, and no union of one member. -/
def normalize : TypeExpr → TypeExpr
  | named name => .named name
  | literal value => .literal value
  | maybe t => .maybe t.normalize
  | array t => .array t.normalize
  | union [] => .union []
  | union (t :: ts) => ofMembers t.normalize (normalizeMembers ts)
  | object exact ps => .object exact (normalizeProperties ps)

def normalizeMembers : List TypeExpr → List TypeExpr
  | [] => []
  | t :: ts => t.normalize :: normalizeMembers ts

def normalizeProperties : List Property → List Property
  | [] => []
  | ⟨key, marked, t⟩ :: ps => ⟨key, marked, t.normalize⟩ :: normalizeProperties ps

end

theorem normalizeMembers_eq {ts : List TypeExpr} : normalizeMembers ts = ts.map normalize := by
  induction ts with
  | nil => rfl
  | cons t ts ih => rw [normalizeMembers, ih, List.map_cons]

theorem normalizeProperties_eq {ps : List Property} :
    normalizeProperties ps = ps.map fun p => { p with value := p.value.normalize } := by
  induction ps with
  | nil => rfl
  | cons p ps ih =>
    obtain ⟨key, marked, t⟩ := p
    rw [normalizeProperties, ih, List.map_cons]

theorem isUnion_normalize {t : TypeExpr} (h : t.isUnion = false) : t.normalize.isUnion = false := by
  cases t <;> first | rfl | cases h

/-! ## Normal trees are left alone -/

theorem Normal.printable {t : TypeExpr} (h : t.Normal) : t.Printable := by
  induction h with
  | named hname => exact .named hname
  | literal => exact .literal
  | maybe _ ih => exact .maybe ih
  | array _ ih => exact .array ih
  | @union ms hlength _ _ ih =>
    refine .union ?_ ih
    rintro rfl
    cases hlength
  | object _ ih => exact .object ih

theorem Normal.normalize_eq {t : TypeExpr} (h : t.Normal) : t.normalize = t := by
  induction h with
  | named _ | literal => rfl
  | maybe _ ih | array _ ih => rw [normalize, ih]
  -- fewer than two members are excluded, and more of them are left alone
  | @union ms hlength hflat _ ih =>
    match ms with
    | [] | [_] => simp at hlength
    | t :: t' :: ts =>
      rw [normalize, normalizeMembers_eq, ih t (by simp),
        List.map_congr_left fun m hm => ih m (List.mem_cons_of_mem t hm), List.map_id', ofMembers]
      · rw [flatMap_members hflat]
      · exact List.cons_ne_nil t' ts
  | @object ps exact _ ih =>
    have hps : ∀ p ∈ ps, { p with value := p.value.normalize } = id p := by
      intro p hp
      rw [ih p hp]
      cases p
      rfl
    rw [normalize, normalizeProperties_eq, List.map_congr_left hps, List.map_id]

theorem Normal.ofMembers_members {t : TypeExpr} (h : t.Normal) :
    ∃ first others, t.members = first :: others ∧ ofMembers first others = t := by
  cases h with
  | @union ms hlength hflat _ =>
    match ms with
    | [] | [_] => simp at hlength
    | first :: second :: others =>
      refine ⟨first, second :: others, rfl, ?_⟩
      rw [ofMembers, flatMap_members hflat]
      exact List.cons_ne_nil second others
  | _ => exact ⟨_, [], rfl, rfl⟩

theorem Normal.members_ne_nil {t : TypeExpr} (h : t.Normal) : t.members ≠ [] := by
  obtain ⟨first, others, hmembers, -⟩ := h.ofMembers_members
  simp [hmembers]

theorem Normal.of_mem_members {t m : TypeExpr} (h : t.Normal) (hm : m ∈ t.members) :
    m.isUnion = false ∧ m.Normal := by
  -- everything but a union is its own only member
  cases h with
  | union _ hflat hmembers => exact ⟨hflat m hm, hmembers m hm⟩
  | named hname =>
    obtain rfl := List.mem_singleton.1 hm
    exact ⟨rfl, .named hname⟩
  | literal =>
    obtain rfl := List.mem_singleton.1 hm
    exact ⟨rfl, .literal⟩
  | maybe ht =>
    obtain rfl := List.mem_singleton.1 hm
    exact ⟨rfl, .maybe ht⟩
  | array ht =>
    obtain rfl := List.mem_singleton.1 hm
    exact ⟨rfl, .array ht⟩
  | object hps =>
    obtain rfl := List.mem_singleton.1 hm
    exact ⟨rfl, .object hps⟩

/-! ## Normalizing makes normal -/

theorem normal_ofMembers {t : TypeExpr} {ts : List TypeExpr} (h : ∀ m ∈ t :: ts, m.Normal) :
    (ofMembers t ts).Normal := by
  cases ts with
  | nil => exact h t (by simp)
  | cons t' ts =>
    -- the members of all members, which are no unions
    have hflat : ∀ m ∈ (t :: t' :: ts).flatMap members, m.isUnion = false ∧ m.Normal := by
      intro m hm
      obtain ⟨t, ht, hm⟩ := List.mem_flatMap.1 hm
      exact (h t ht).of_mem_members hm
    refine .union ?_ (fun m hm => (hflat m hm).1) (fun m hm => (hflat m hm).2)
    -- each of the first two gives a member at least
    have ht := List.length_pos_iff.2 (h t (by simp)).members_ne_nil
    have ht' := List.length_pos_iff.2 (h t' (by simp)).members_ne_nil
    simp only [List.flatMap_cons, List.length_append]
    omega

theorem Printable.normal_normalize {t : TypeExpr} (h : t.Printable) : t.normalize.Normal := by
  induction h with
  | named hname => exact .named hname
  | literal => exact .literal
  | maybe _ ih => exact .maybe ih
  | array _ ih => exact .array ih
  | @union ms hne _ ih =>
    obtain ⟨t, ts, rfl⟩ := List.exists_cons_of_ne_nil hne
    rw [normalize, normalizeMembers_eq]
    refine normal_ofMembers ?_
    rw [← List.map_cons]
    intro m hm
    obtain ⟨t', ht', rfl⟩ := List.mem_map.1 hm
    exact ih t' ht'
  | object _ ih =>
    rw [normalize, normalizeProperties_eq]
    refine .object ?_
    intro p hp
    obtain ⟨p', hp', rfl⟩ := List.mem_map.1 hp
    exact ih p' hp'

end ModelTypes.TypeExpr

/-! ## The grammar spells normal trees -/

namespace ModelTypes.Grammar

theorem normal_dimensions (h : Dimensions v t t') (ht : t.Normal) : t'.Normal := by
  induction h with
  | none => exact ht
  | array _ _ _ ih => exact ih (.array ht)

theorem normal_type (h : TypeText u t) : t.Normal := by
  -- one statement for each relation of the grammar
  refine @TypeText.rec (fun _ t _ => t.Normal) (fun _ ts _ => ∀ t ∈ ts, t.Normal)
    (fun _ t _ => t.Normal) (fun _ t _ => t.Normal) (fun _ ps _ => ∀ p ∈ ps, p.value.Normal)
    (fun _ p _ => p.value.Normal) ?members ?member ?moreMembers ?maybe ?dimensions ?literal ?object
    ?parentheses ?named ?noProperty ?property ?moreProperties ?keyed u t h
  -- only here does a tree come from several ones
  case members =>
    intro _ _ _ _ _ _ _ _ _ hts
    exact TypeExpr.normal_ofMembers hts
  case member =>
    intro _ _ _ ht
    exact List.forall_mem_singleton.2 ht
  case moreMembers =>
    intro _ _ _ _ _ _ _ _ _ _ ht hts
    exact List.forall_mem_cons.2 ⟨ht, hts⟩
  case maybe =>
    intro _ _ _ _ _ ht
    exact .maybe ht
  case dimensions =>
    intro _ _ _ _ _ hv ht
    exact normal_dimensions hv ht
  case literal =>
    intro _ _ _
    exact .literal
  case object =>
    intro _ _ _ _ _ _ _ _ hps
    exact .object hps
  case parentheses =>
    intro _ _ _ _ _ ht
    exact ht
  case named =>
    intro _ hu
    exact .named (by rwa [String.toList_ofList])
  case noProperty =>
    intro _ _
    exact List.forall_mem_nil _
  case property =>
    intro _ _ _ _ _ hp
    exact List.forall_mem_singleton.2 hp
  case moreProperties =>
    intro _ _ _ _ _ _ _ _ _ _ _ hp hps
    exact List.forall_mem_cons.2 ⟨hp, hps⟩
  case keyed =>
    intro _ _ _ _ _ _ _ _ _ _ _ ht
    exact ht

end ModelTypes.Grammar
