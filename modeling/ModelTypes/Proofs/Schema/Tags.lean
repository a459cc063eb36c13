import ModelTypes.Proofs.Text.Blank
import ModelTypes.Schema.Domain

/-!
# Spellings of type tags

A tag may be written with blanks around it, with its ASCII letters in either case and with a
parameter list behind it. Its domain does not depend on these, except that a tag without a domain of
its own keeps the case in which it was written. A domain is read back from the tag it is shown as;
only the tag of numbers is none of those that are read as numbers, and still counts as one.
-/

namespace ModelTypes

namespace Text

variable {p : Char → Bool} {b : Bool} {front body back parameters s t : List Char}

/-! ## Letter case -/

def foldCase (s : List Char) : List Char :=
  s.map Char.toLower

/-- A capital has a small letter, and every other character is its own. -/
theorem toLower_cases (c : Char) :
    (c.isUpper ∧ c.toLower.isLower ∧ c.toLower.toUpper = c.toUpper) ∨ c.toLower = c := by
  by_cases h : 'A'.val ≤ c.val ∧ c.val ≤ 'Z'.val
  · have hletters : ∀ n ≤ 'Z'.toNat, 'A'.toNat ≤ n → (Char.ofNat n).toLower.isLower ∧
        (Char.ofNat n).toLower.toUpper = (Char.ofNat n).toUpper := by
      decide
    have hc := hletters c.toNat h.2 h.1
    rw [Char.ofNat_toNat] at hc
    exact .inl ⟨decide_eq_true h, hc⟩
  · exact .inr (dif_neg h)

theorem comp_toLower (hp : ∀ c : Char, c.isAlpha → p c = b) : p ∘ Char.toLower = p := by
  funext c
  rcases toLower_cases c with ⟨hupper, hlower, -⟩ | hself
  · have hc : c.isAlpha := Bool.or_eq_true_iff.2 (.inl hupper)
    have hfold : c.toLower.isAlpha := Bool.or_eq_true_iff.2 (.inr hlower)
    exact (hp _ hfold).trans (hp c hc).symm
  · exact congrArg p hself

theorem isBlank_comp_toLower : isBlank ∘ Char.toLower = isBlank :=
  comp_toLower fun c hc => isBlank_of_isAlphanum (by simp [Char.isAlphanum, hc])

theorem foldCase_takeWhile (hp : p ∘ Char.toLower = p) :
    foldCase (s.takeWhile p) = (foldCase s).takeWhile p := by
  rw [foldCase, foldCase, List.takeWhile_map, hp]

theorem foldCase_trim : foldCase (trim s) = trim (foldCase s) := by
  simp only [foldCase, trim, trimStart, trimEnd, ← List.map_reverse, List.dropWhile_map,
    isBlank_comp_toLower]

theorem map_toUpper_of_foldCase (h : foldCase s = foldCase t) :
    s.map Char.toUpper = t.map Char.toUpper := by
  have hfold (u : List Char) : (foldCase u).map Char.toUpper = u.map Char.toUpper := by
    rw [foldCase, List.map_map]
    refine List.map_congr_left fun c _ => ?_
    rcases toLower_cases c with ⟨-, -, h⟩ | h
    · exact h
    · exact congrArg Char.toUpper h
  rw [← hfold s, h, hfold]

/-! ## Parameter lists -/

theorem ne_of_isBlank {c : Char} (h : isBlank c) : decide (c ≠ '(') := by
  rw [decide_eq_true_eq]
  rintro rfl
  cases h

/-- Neither the blanks around a tag nor the parameters behind it are part of its name, wherever the
first parenthesis is. -/
theorem trim_takeWhile_append (hfront : ∀ c ∈ front, isBlank c) (hback : ∀ c ∈ back, isBlank c)
    (hparameters : parameters = [] ∨ ∃ text, parameters = '(' :: text) :
    trim ((front ++ body ++ back ++ parameters).takeWhile (· ≠ '(')) =
      trim (body.takeWhile (· ≠ '(')) := by
  rw [List.append_assoc, List.append_assoc,
    List.takeWhile_append_of_pos fun c hc => ne_of_isBlank (hfront c hc)]
  by_cases hbody : body.takeWhile (· ≠ '(') = body
  · -- the tag has no parenthesis of its own, so its name reaches to the parameters
    have hname : ∀ c ∈ body ++ back, decide (c ≠ '(') := by
      intro c hc
      rcases List.mem_append.1 hc with hc | hc
      · exact List.takeWhile_eq_self_iff.1 hbody c hc
      · exact ne_of_isBlank (hback c hc)
    have hend : parameters.head?.any (fun c => decide (c ≠ '(')) = false := by
      rcases hparameters with rfl | ⟨text, rfl⟩ <;> rfl
    rw [← List.append_assoc body, takeWhile_append hname hend, hbody, ← List.append_assoc,
      trim_append hfront hback]
  · -- its own parenthesis comes first, and nothing behind it counts
    have hlength : (body.takeWhile (· ≠ '(')).length ≠ body.length :=
      mt (List.takeWhile_prefix _).eq_of_length hbody
    rw [List.takeWhile_append, if_neg hlength]
    simpa using trim_append hfront (List.forall_mem_nil _)

end Text

namespace ValueDomain

open Text (isBlank)

variable {raw spelling : String}

/-- Whether a tag is spelled as another one, up to the case of ASCII letters, with blanks around it
and possibly a parameter list behind it. -/
def Respells (spelling raw : String) : Prop :=
  ∃ front body back parameters,
    spelling.toList = front ++ body ++ back ++ parameters ∧
      Text.foldCase body = Text.foldCase raw.toList ∧
      (∀ c ∈ front, isBlank c) ∧ (∀ c ∈ back, isBlank c) ∧
      (parameters = [] ∨ ∃ text, parameters = '(' :: text)

/-- The domain without the case in which a tag was kept. -/
def foldCase : ValueDomain → ValueDomain
  | other tag => other (String.ofList (Text.foldCase tag.toList))
  | domain => domain

@[simp] theorem kind_foldCase (d : ValueDomain) : d.foldCase.kind = d.kind := by
  cases d <;> rfl

theorem kind_eq_of_foldCase {d e : ValueDomain} (h : d.foldCase = e.foldCase) :
    d.kind = e.kind := by
  rw [← kind_foldCase, h, kind_foldCase]

/-! ## Reading a tag -/

theorem Respells.baseTag (h : Respells spelling raw) :
    Text.foldCase (baseTag spelling) = Text.foldCase (baseTag raw) := by
  obtain ⟨front, body, back, parameters, hspelling, hbody, hfront, hback, hparameters⟩ := h
  have hcomp : (fun c => decide (c ≠ '(')) ∘ Char.toLower = fun c => decide (c ≠ '(') :=
    Text.comp_toLower (b := true) fun c hc => decide_eq_true (by rintro rfl; cases hc)
  unfold ValueDomain.baseTag
  rw [hspelling, Text.trim_takeWhile_append hfront hback hparameters, Text.foldCase_trim,
    Text.foldCase_takeWhile hcomp, hbody, ← Text.foldCase_takeWhile hcomp, ← Text.foldCase_trim]

theorem foldCase_ofTag (h : Text.foldCase (baseTag spelling) = Text.foldCase (baseTag raw)) :
    (ofTag spelling).foldCase = (ofTag raw).foldCase := by
  unfold ofTag
  simp only [Text.map_toUpper_of_foldCase h]
  split
  · rfl
  · rw [foldCase, foldCase, String.toList_ofList, String.toList_ofList, h]

theorem ofTag_cases (raw : String) :
    (∃ p ∈ known, ofTag raw = p.2) ∨ ofTag raw = other (String.ofList (baseTag raw)) := by
  unfold ofTag
  simp only
  split
  · next d hlookup =>
    obtain ⟨front, back, hknown, -⟩ := List.lookup_eq_some_iff.1 hlookup
    exact .inl ⟨_, hknown ▸ List.mem_append_right _ List.mem_cons_self, rfl⟩
  · exact .inr rfl

/-! ## Showing a domain -/

theorem baseTag_baseTag : baseTag (String.ofList (baseTag raw)) = baseTag raw := by
  have hname : ∀ c ∈ baseTag raw, decide (c ≠ '(') := fun c hc =>
    List.mem_takeWhile_imp (p := fun c => decide (c ≠ '(')) (Text.mem_of_mem_trim hc)
  calc baseTag (String.ofList (baseTag raw))
    _ = Text.trim ((baseTag raw).takeWhile (· ≠ '(')) := by
      rw [baseTag, String.toList_ofList]
    _ = Text.trim (baseTag raw) := by rw [List.takeWhile_eq_self_iff.2 hname]
    _ = baseTag raw := Text.trim_trim

theorem ofTag_baseTag : ofTag (String.ofList (baseTag raw)) = ofTag raw := by
  unfold ofTag
  rw [baseTag_baseTag]

theorem ofTag_tag_known :
    ∀ p ∈ known, ofTag p.2.tag = if p.2 = numeric then other "NUMERIC" else p.2 := by
  decide +kernel

theorem ofTag_tag_ofTag (raw : String) :
    ofTag (ofTag raw).tag = if ofTag raw = numeric then other "NUMERIC" else ofTag raw := by
  rcases ofTag_cases raw with ⟨p, hp, hraw⟩ | hraw
  · rw [hraw]
    exact ofTag_tag_known p hp
  · have hother : ofTag raw ≠ numeric := by
      rw [hraw]
      exact nofun
    calc ofTag (ofTag raw).tag
      _ = ofTag (String.ofList (baseTag raw)) := by rw [hraw, tag]
      _ = ofTag raw := ofTag_baseTag
      _ = _ := (if_neg hother).symm

/-- All spellings of a tag have one domain, up to the case of a tag that is kept, and one kind. The
tag that a domain is shown as has its kind, and is read back as the domain unless that is numeric. -/
theorem ofTag_respelled (raw : String) :
    (∀ spelling, Respells spelling raw →
      (ofTag spelling).foldCase = (ofTag raw).foldCase ∧
        (ofTag spelling).kind = (ofTag raw).kind) ∧
    (ofTag (ofTag raw).tag).kind = (ofTag raw).kind ∧
    (ofTag (ofTag raw).tag = ofTag raw ↔ ofTag raw ≠ numeric) := by
  refine ⟨fun spelling h => ?spelled, ?kind, ?domain⟩
  case spelled =>
    have hdomain := foldCase_ofTag h.baseTag
    exact ⟨hdomain, kind_eq_of_foldCase hdomain⟩
  case kind =>
    rw [ofTag_tag_ofTag]
    split
    · next hnumeric =>
      rw [hnumeric]
      rfl
    · rfl
  case domain =>
    rw [ofTag_tag_ofTag, ite_eq_right_iff]
    constructor
    · intro h hnumeric
      cases (h hnumeric).trans hnumeric
    · exact fun h hnumeric => absurd hnumeric h

theorem ofTag_respelled_sample :
    Respells "\u2003jSONb (é\t(x)" "JsonB (é" ∧
      ofTag "\u2003jSONb (é\t(x)" = other "jSONb" ∧ ofTag "JsonB (é" = other "JsonB" ∧
      (ofTag "\u2003jSONb (é\t(x)").foldCase = (ofTag "JsonB (é").foldCase ∧
      (ofTag "\u2003jSONb (é\t(x)").kind = (ofTag "JsonB (é").kind := by
  have h : Respells "\u2003jSONb (é\t(x)" "JsonB (é" :=
    ⟨['\u2003'], "jSONb (é".toList, ['\t'], "(x)".toList, by decide +kernel, by decide +kernel,
      List.forall_mem_singleton.2 rfl, List.forall_mem_singleton.2 rfl,
      .inr ⟨"x)".toList, by decide +kernel⟩⟩
  exact ⟨h, by decide +kernel, by decide +kernel, (ofTag_respelled _).1 _ h⟩

example : ofTag (ofTag "bigint(20)").tag = other "NUMERIC" := by
  decide +kernel

end ValueDomain

end ModelTypes
