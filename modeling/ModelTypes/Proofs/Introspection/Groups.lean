import Mathlib.Data.List.Forall2
import ModelTypes.Introspection

/-!
# The groups of an introspection

Introspection runs through the models, their columns and their associations, and the first failure
ends it. When it succeeds, its documents are one group for each retained model, and the bindings of
a group belong to the columns and associations of its model one by one.
-/

namespace ModelTypes

/-! ## Runs through lists -/

theorem except_bind_ok_iff {x : Except ε α} {f : α → Except ε β} :
    x >>= f = .ok b ↔ ∃ a, x = .ok a ∧ f a = .ok b := by
  cases x with
  | error e => simp [bind, Except.bind]
  | ok a => simp [bind, Except.bind]

theorem except_pure_ok_iff {a b : α} : (pure a : Except ε α) = .ok b ↔ a = b := by
  simp [pure, Except.pure]

theorem mapM_ok_iff {f : α → Except ε β} {l : List α} {r : List β} :
    l.mapM f = .ok r ↔ List.Forall₂ (fun a b => f a = .ok b) l r := by
  -- the result has a head for each head of the list
  induction l generalizing r with
  | nil => rw [List.mapM_nil, except_pure_ok_iff, List.forall₂_nil_left_iff, eq_comm]
  | cons a l ih =>
    rw [List.mapM_cons, except_bind_ok_iff, List.forall₂_cons_left_iff]
    constructor
    · rintro ⟨b, hb, h⟩
      obtain ⟨bs, hbs, hr⟩ := except_bind_ok_iff.1 h
      exact ⟨b, bs, hb, ih.1 hbs, (except_pure_ok_iff.1 hr).symm⟩
    · rintro ⟨b, bs, hb, hbs, rfl⟩
      exact ⟨b, hb, except_bind_ok_iff.2 ⟨bs, ih.2 hbs, rfl⟩⟩

theorem forall₂_of_mem_left {R : α → β → Prop} {l : List α} {r : List β} (h : List.Forall₂ R l r)
    (ha : a ∈ l) : ∃ b ∈ r, R a b := by
  induction h with
  | nil => cases ha
  | cons hfirst _ ih =>
    rcases List.mem_cons.1 ha with rfl | ha
    · exact ⟨_, List.mem_cons_self, hfirst⟩
    · obtain ⟨b, hb, hab⟩ := ih ha
      exact ⟨b, List.mem_cons_of_mem _ hb, hab⟩

theorem forall₂_of_mem_right {R : α → β → Prop} {l : List α} {r : List β} (h : List.Forall₂ R l r)
    (hb : b ∈ r) : ∃ a ∈ l, R a b :=
  forall₂_of_mem_left h.flip hb

namespace Introspection

variable {config : Config} {models : List Model} {m target : Model} {documents own : List Document}

/-! ## References -/

theorem mem_retained_of_table (h : modelOfTable? config models table = some target) :
    target ∈ retained config models :=
  List.mem_of_find?_eq_some h

def keyName (config : Config) (target : Model) (primaryKey : String) : String :=
  referenceName config target ++ toPascalCase primaryKey

theorem resolveReference_ok_iff : resolveReference config models m a key = .ok type ↔
    ∃ target primaryKey, modelOfTable? config models key.table = some target ∧
      target.primaryKey? = some primaryKey ∧ (∃ c ∈ columns config target, c.name = primaryKey) ∧
      type = .named (keyName config target primaryKey) := by
  constructor
  · intro h
    rw [resolveReference] at h
    -- each lookup may fail with an error of its own
    split at h
    · cases h
    · next target htarget =>
      split at h
      · cases h
      · next primaryKey hkey =>
        split at h
        · next hcolumn =>
          cases h
          obtain ⟨c, hc, hname⟩ := List.any_eq_true.1 hcolumn
          exact ⟨target, primaryKey, htarget, hkey, ⟨c, hc, of_decide_eq_true hname⟩, rfl⟩
        · cases h
  · rintro ⟨target, primaryKey, htarget, hkey, ⟨c, hc, hname⟩, rfl⟩
    have hcolumn : (columns config target).any (·.name = primaryKey) :=
      List.any_eq_true.2 ⟨c, hc, decide_eq_true hname⟩
    simp only [resolveReference, htarget, hkey, hcolumn, if_true]
    rfl

theorem association_ok_iff : association config models m a = .ok b ↔
    ∃ target, modelNamed? models a.target = some target ∧
      b = { key := a.name
            value := match a.kind.cardinality with
              | .toMany => .listOf (referenceName config target)
              | .toOne => .named (referenceName config target)
            optional := true } := by
  constructor
  · intro h
    rw [association] at h
    split at h
    · cases h
    · next target htarget =>
      cases h
      exact ⟨target, htarget, rfl⟩
  · rintro ⟨target, htarget, rfl⟩
    rw [association]
    split
    · next hnone => cases htarget.symm.trans hnone
    · next found hfound =>
      obtain rfl : target = found := Option.some.inj (htarget.symm.trans hfound)
      rfl

/-! ## Groups -/

def groupOf (config : Config) (m : Model) (fields associations : List Binding) : List Document :=
  ((columns config m).filterMap (enumeration? config m)).map .enum ++ [.model {
    name := capitalizeFirst m.name
    typePrefix := config.typePrefix
    aliases := (columns config m).filterMap (alias? config m)
    fields
    associations }]

theorem group_ok_iff : group config models m = .ok own ↔ ∃ fields associations,
    List.Forall₂ (fun a b => field config models m a = .ok b) (columns config m) fields ∧
      List.Forall₂ (fun a b => association config models m a = .ok b) m.associations associations ∧
      own = groupOf config m fields associations := by
  simp only [← mapM_ok_iff]
  constructor
  · intro h
    obtain ⟨fields, hfields, h⟩ := except_bind_ok_iff.1 h
    obtain ⟨associations, hassociations, h⟩ := except_bind_ok_iff.1 h
    exact ⟨fields, associations, hfields, hassociations, (except_pure_ok_iff.1 h).symm⟩
  · rintro ⟨fields, associations, hfields, hassociations, rfl⟩
    exact except_bind_ok_iff.2 ⟨fields, hfields, except_bind_ok_iff.2 ⟨associations, hassociations, rfl⟩⟩

/-- Introspection succeeds if and only if each retained model has a group and no name is declared
twice. -/
theorem introspect_ok_iff : introspect config models = .ok documents ↔ ∃ groups,
    List.Forall₂ (fun m own => group config models m = .ok own) (retained config models) groups ∧
      firstRepeated? [] (declarations groups.flatten) = none ∧ documents = groups.flatten := by
  simp only [← mapM_ok_iff]
  constructor
  · intro h
    obtain ⟨groups, hgroups, h⟩ := except_bind_ok_iff.1 h
    refine ⟨groups, hgroups, ?_⟩
    -- a name that is declared twice fails the run
    split at h
    · cases h
    · next hnone =>
      cases h
      exact ⟨hnone, rfl⟩
  · rintro ⟨groups, hgroups, hnone, rfl⟩
    refine except_bind_ok_iff.2 ⟨groups, hgroups, ?_⟩
    rw [hnone]

theorem group_of_retained (h : introspect config models = .ok documents)
    (hm : m ∈ retained config models) :
    ∃ own, group config models m = .ok own ∧ own ⊆ documents := by
  obtain ⟨groups, hgroups, -, rfl⟩ := introspect_ok_iff.1 h
  obtain ⟨own, hown, hgroup⟩ := forall₂_of_mem_left hgroups hm
  exact ⟨own, hgroup, fun _ hd => List.mem_flatten_of_mem hown hd⟩

theorem group_of_document (h : introspect config models = .ok documents) (hd : d ∈ documents) :
    ∃ m ∈ retained config models, ∃ own, group config models m = .ok own ∧ d ∈ own ∧
      own ⊆ documents := by
  obtain ⟨groups, hgroups, -, rfl⟩ := introspect_ok_iff.1 h
  obtain ⟨own, hown, hd⟩ := List.mem_flatten.1 hd
  obtain ⟨m, hm, hgroup⟩ := forall₂_of_mem_right hgroups hown
  exact ⟨m, hm, own, hgroup, hd, fun _ hd => List.mem_flatten_of_mem hown hd⟩

end Introspection

end ModelTypes
