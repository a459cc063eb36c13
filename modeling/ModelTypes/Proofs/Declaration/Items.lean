import ModelTypes.Proofs.Declaration.Types

/-!
# Reading files

A file is read exactly if it is in the grammar. Between items only comments need care: a line
comment ends before its line feed, and a block comment at the first end that it meets.
-/

namespace ModelTypes.Parser

open Grammar
open Text (isGap isIdentifier isIdentRest isIdentStart skipGap)

variable {s r u v w : List Char}

/-! ## Comments -/

theorem untilBlockEnd_sound (h : untilBlockEnd s = some (u, r)) :
    ¬ ['*', '/'] <:+: u ∧ s = u ++ '*' :: '/' :: r := by
  fun_induction untilBlockEnd s generalizing u with
  | case1 rest =>
    cases h
    exact ⟨by simp, rfl⟩
  | case2 c rest hne ih =>
    simp only [Option.map_eq_some_iff, Prod.exists, Prod.mk.injEq] at h
    obtain ⟨v, r', hread, rfl, rfl⟩ := h
    obtain ⟨hv, rfl⟩ := ih hread
    refine ⟨?_, rfl⟩
    rw [List.infix_cons_iff]
    rintro (hfront | hinfix)
    · -- the end cannot lie across the first character, since it would have been read there
      obtain ⟨hc, htail⟩ := List.cons_prefix_cons.1 hfront
      cases v with
      | nil => simp at htail
      | cons d ds =>
        obtain ⟨hd, -⟩ := List.cons_prefix_cons.1 htail
        exact hne _ (by rw [hc]) (by rw [hd]; rfl)
    · exact hv hinfix
  | case3 => cases h

theorem untilBlockEnd_complete (h : ¬ ['*', '/'] <:+: u) :
    untilBlockEnd (u ++ '*' :: '/' :: r) = some (u, r) := by
  induction u with
  | nil => rfl
  | cons c cs ih =>
    rw [List.infix_cons_iff, not_or] at h
    rw [List.cons_append, untilBlockEnd, ih h.2]
    · rfl
    -- an end that lies across the first character would be inside the comment
    · rintro rest rfl hrest
      cases cs with
      | nil => cases hrest
      | cons d ds =>
        cases hrest
        exact h.1 (by simp)

theorem comment?_iff : (comment? s).map Parsed.pair = some (c, r) ↔
    (∃ u, '\n' ∉ u ∧ r.head?.all (· = '\n') ∧ s = '/' :: '/' :: u ++ r ∧
      c = .line (String.ofList (Text.trimEnd u))) ∨
    ∃ u, ¬ ['*', '/'] <:+: u ∧ s = '/' :: '*' :: u ++ '*' :: '/' :: r ∧
      c = .block (String.ofList u) := by
  constructor
  · intro h
    -- the two kinds of comment, and a text that is none
    rw [comment?.eq_def] at h
    split at h
    · next rest =>
      simp only [Option.map_some, Parsed.pair_after, Parsed.pair_run, Option.some.injEq,
        Prod.mk.injEq] at h
      obtain ⟨rfl, rfl⟩ := h
      refine .inl ⟨rest.takeWhile (· ≠ '\n'), ?_, ?_, by simp, rfl⟩
      · intro hmem
        simpa using List.all_eq_true.1 List.all_takeWhile _ hmem
      · have hstop := Text.head?_dropWhile (p := fun c => decide (c ≠ '\n')) (s := rest)
        cases hrest : (rest.dropWhile fun c => decide (c ≠ '\n')).head? <;> simp_all
    · next rest =>
      split at h
      · next u after hread =>
        simp only [Option.map_some, Parsed.pair_after, Parsed.pair_mk, Option.some.injEq,
          Prod.mk.injEq] at h
        obtain ⟨rfl, rfl⟩ := h
        obtain ⟨hu, rfl⟩ := untilBlockEnd_sound hread
        exact .inr ⟨u, hu, rfl, rfl⟩
      · cases h
    · cases h
  · rintro (⟨u, hu, hr, rfl, rfl⟩ | ⟨u, hu, rfl, rfl⟩)
    -- a line comment takes all but the line feed, which stays with the rest
    · have hplain : ∀ c ∈ u, (decide (c ≠ '\n')) = true := by
        intro c hc
        exact decide_eq_true fun h => hu (h ▸ hc)
      have hstop : r.head?.any (fun c => decide (c ≠ '\n')) = false := by
        cases hrest : r.head? <;> simp_all
      simp only [List.cons_append, comment?, Option.map_some, Parsed.pair_after, Parsed.pair_run,
        Text.takeWhile_append hplain hstop, Text.dropWhile_append hplain hstop]
    · rw [List.cons_append, List.cons_append, comment?]
      split
      · next u' after hread =>
        cases (untilBlockEnd_complete (r := r) hu).symm.trans hread
        rfl
      · next hnone => cases (untilBlockEnd_complete (r := r) hu).symm.trans hnone

theorem comment?_eq_none (h : s.head? ≠ some '/') : comment? s = none := by
  rw [comment?]
  all_goals
    rintro rest rfl
    exact h rfl

/-! ## Declarations -/

theorem modifier_ok : (modifier s).pair = (m, r) ↔
    ∃ s₁, (optionalKeyword .declare s).pair = (m.declared, s₁) ∧
      (optionalKeyword .export s₁).pair = (m.exported, r) := by
  rw [modifier]
  rcases m with ⟨declared, exported⟩
  rcases optionalKeyword .declare s with ⟨declared', s₁, h₁⟩
  simp only [Parsed.pair_widen, Parsed.pair_map, Parsed.pair_mk, Prod.mk.injEq, and_assoc,
    exists_and_left, exists_eq_left']
  rcases optionalKeyword .export s₁ with ⟨exported', s₂, h₂⟩
  simp [and_assoc]

theorem modifier_sound (h : (modifier s).pair = (m, r)) :
    ∃ w w', OptionalKeyword "declare".toList m.declared w ∧
      OptionalKeyword "export".toList m.exported w' ∧ s = w ++ w' ++ r := by
  obtain ⟨s₁, hdeclare, hexport⟩ := modifier_ok.1 h
  obtain ⟨w, hw, rfl⟩ := optionalKeyword_sound hdeclare
  obtain ⟨w', hw', rfl⟩ := optionalKeyword_sound hexport
  exact ⟨w, w', hw, hw', by simp⟩

theorem head?_exported (h : OptionalKeyword "export".toList exported v) :
    (v ++ ("type".toList ++ r)).head? = some 'e' ∨ (v ++ ("type".toList ++ r)).head? = some 't' := by
  cases exported with
  | true =>
    obtain ⟨g, _, _, rfl⟩ := h
    exact .inl rfl
  | false =>
    obtain rfl := h
    exact .inr rfl

theorem modifier_complete (hw : OptionalKeyword "declare".toList declared w)
    (hv : OptionalKeyword "export".toList exported v) :
    (modifier (w ++ v ++ ("type".toList ++ r))).pair = (⟨declared, exported⟩, "type".toList ++ r) := by
  -- the second keyword first, since the first one looks at what follows it
  have hexport : (optionalKeyword .export (v ++ ("type".toList ++ r))).pair =
      (exported, "type".toList ++ r) := by
    cases exported with
    | true =>
      obtain ⟨g, hg, hne, rfl⟩ := hv
      exact optionalKeyword_present hg hne rfl
    | false =>
      obtain rfl := hv
      exact optionalKeyword_absent rfl
  have hdeclare : (optionalKeyword .declare (w ++ (v ++ ("type".toList ++ r)))).pair =
      (declared, v ++ ("type".toList ++ r)) := by
    cases declared with
    | true =>
      obtain ⟨g, hg, hne, rfl⟩ := hw
      refine optionalKeyword_present hg hne ?_
      rcases head?_exported hv with h | h <;> (rw [NoGap, h]; rfl)
    | false =>
      obtain rfl := hw
      refine optionalKeyword_absent (dropFront?_eq_none (c := 'd') ?_)
      rcases head?_exported hv with h | h <;> rw [List.nil_append, h] <;> decide
  rw [List.append_assoc]
  exact modifier_ok.2 ⟨v ++ ("type".toList ++ r), hdeclare, hexport⟩

theorem declaration_ok : (declaration s).map Parsed.pair = .ok (i, r) ↔
    ∃ m s₁ s₂ name s₃ s₄ t s₅ terminated, (modifier s).pair = (m, s₁) ∧
      (keyword .type s₁).map Parsed.pair = .ok ((), s₂) ∧
      (identifier? (skipGap s₂)).map Parsed.pair = some (name, s₃) ∧
      (sign? '=' s₃).map Parsed.pair = some ((), s₄) ∧
      (typeAt s₄).map Parsed.pair = .ok (t, s₅) ∧
      (optionalSign ';' s₅).pair = (terminated, r) ∧
      .declaration m (String.ofList name) t = i := by
  rw [declaration]
  -- each step of the reader is split off in turn, and where it fails both sides are false
  rcases modifier s with ⟨m, s₁, h₁⟩
  simp only [Parsed.pair_mk, Prod.mk.injEq, and_assoc, exists_and_left, exists_eq_left']
  rcases keyword .type s₁ with e | ⟨_, s₂, h₂⟩
  · simp
  simp only [except_map_ok, Parsed.pair_mk, Except.ok.injEq, Prod.mk.injEq, true_and,
    exists_eq_left']
  rcases identifier? (skipGap s₂) with _ | ⟨name, s₃, h₃⟩
  · simp
  simp only [Option.map_some, Parsed.pair_mk, Option.some.injEq, Prod.mk.injEq, and_assoc,
    exists_and_left, exists_eq_left']
  rcases sign? '=' s₃ with _ | ⟨_, s₄, h₄⟩
  · simp
  simp only [Option.map_some, Parsed.pair_mk, Option.some.injEq, Prod.mk.injEq, true_and,
    exists_eq_left']
  rcases typeAt s₄ with e | ⟨t, s₅, h₅⟩
  · simp
  simp only [except_map_ok, Parsed.pair_mk, Except.ok.injEq, Prod.mk.injEq, and_assoc,
    exists_and_left, exists_eq_left']
  rcases optionalSign ';' s₅ with ⟨terminated, s₆, h₆⟩
  simp [and_comm]

theorem declaration_sound (h : (declaration s).map Parsed.pair = .ok (i, r)) :
    ∃ u m name t, DeclarationText u m name t ∧ Apart u r ∧
      i = .declaration m (String.ofList name) t ∧ s = u ++ r := by
  obtain ⟨m, s₁, s₂, name, s₃, s₄, t, s₅, terminated, hmodifier, hkeyword, hname, hequals, htype,
    hsemi, rfl⟩ := declaration_ok.1 h
  obtain ⟨w, w', hw, hw', rfl⟩ := modifier_sound hmodifier
  obtain ⟨hend, rfl⟩ := keyword_iff.1 hkeyword
  obtain ⟨hident, hrest, hs₂⟩ := identifier?_iff.1 hname
  obtain ⟨g, hg, hgap⟩ := exists_gap s₂
  have hne : g ≠ [] := by
    -- a name directly after the keyword would have made the keyword run on
    rintro rfl
    obtain ⟨c, cs, rfl, hc⟩ := isIdentStart_head hident
    rw [hgap, hs₂] at hend
    exact absurd (Text.isIdentRest_of_isIdentStart hc) (by simpa [WordEnd] using hend)
  obtain ⟨equals, hequal, rfl⟩ := sign?_sound hequals
  obtain ⟨u, hu, hapart, rfl⟩ := typeAt_sound htype
  -- what is read last decides what the declaration ends in
  obtain ⟨semi, hend, rfl⟩ := optionalSign_sound hsemi
  refine ⟨_, m, name, t, .declaration hw hw' hg hne hident hequal hu hend, ?_, rfl, ?_⟩
  · cases terminated with
    | true => exact Sign.apart hend rfl
    | false =>
      obtain rfl := hend
      rw [List.append_nil, apart_append (ne_nil_of_type hu)]
      exact hapart
  · rw [hgap, hs₂, show Keyword.type.text = "type".toList from rfl]
    simp only [List.append_assoc]

/-- A text that no declaration can take as its own. -/
def DeclarationEnd (r : List Char) : Prop :=
  TypeEnd r ∧ (skipGap r).head? ≠ some ';'

theorem declaration_complete (h : DeclarationText u m name t) (hr : DeclarationEnd r)
    (ha : Apart u r) : (declaration (u ++ r)).map Parsed.pair =
      .ok (.declaration m (String.ofList name) t, r) := by
  cases h with
  | @declaration declared w exported w' g _ equals u _ terminated semi hw hw' hg hne hident hequals hu
      hsemi =>
    have hname : NoGap (name ++ (equals ++ (u ++ (semi ++ r)))) :=
      (starts_identifier hident).append.noGap isIdentStart_of_isGap
    -- after the type comes the semicolon, or else the text after the declaration
    have htype : TypeEnd (semi ++ r) ∧ Apart u (semi ++ r) := by
      cases terminated with
      | true =>
        exact ⟨typeEnd_sign hsemi (by decide) (by decide) (by decide) rfl,
          (Sign.wordEnd hsemi rfl).apart⟩
      | false =>
        obtain rfl := hsemi
        rw [List.append_nil, apart_append (ne_nil_of_type hu)] at ha
        exact ⟨hr.1, ha⟩
    have hassoc : w ++ w' ++ "type".toList ++ g ++ name ++ equals ++ u ++ semi ++ r =
        w ++ w' ++ ("type".toList ++ (g ++ (name ++ (equals ++ (u ++ (semi ++ r)))))) := by
      simp only [List.append_assoc]
    rw [hassoc]
    refine declaration_ok.2 ⟨_, _, _, name, _, _, t, semi ++ r, terminated, modifier_complete hw hw',
      keyword_iff.2 ⟨hg.wordEnd_of_ne_nil hne, rfl⟩, ?_, sign?_complete hequals rfl,
      typeAt_complete hu htype.1 htype.2, optionalSign_complete hsemi rfl fun _ => hr.2, rfl⟩
    rw [skipGap_append_eq hg hname]
    exact identifier?_iff.2 ⟨hident, hequals.wordEnd rfl, rfl⟩

theorem starts_declaration (h : DeclarationText u m name t) : Starts isIdentStart u := by
  cases h with
  | @declaration declared w exported w' g _ equals u _ terminated semi hw hw' _ _ _ _ _ _ =>
    cases declared with
    | true =>
      obtain ⟨g, _, _, rfl⟩ := hw
      rfl
    | false =>
      obtain rfl := hw
      have hhead := head?_exported (r := g ++ (name ++ (equals ++ (u ++ semi)))) hw'
      simp only [Starts, List.nil_append, List.append_assoc]
      rcases hhead with hhead | hhead <;> (rw [hhead]; rfl)

/-! ## Items -/

def isItemStart (c : Char) : Bool :=
  c == '/' || isIdentStart c

theorem isItemStart_of_isGap (c : Char) (h : isGap c) : isItemStart c = false := by
  rcases eq_of_isGap h with rfl | rfl | rfl | rfl <;> rfl

theorem head?_item (hg : Gap g) (hs : Starts isItemStart s) :
    (skipGap (g ++ s)).head?.all isItemStart := by
  rw [skipGap_append_eq hg (hs.noGap isItemStart_of_isGap)]
  cases s with
  | nil => cases hs
  | cons c cs => exact hs

theorem head?_items (h : Items s is) : (skipGap s).head?.all isItemStart := by
  cases h with
  | none hg =>
    rw [← List.append_nil s, skipGap_append hg]
    rfl
  | line hg _ _ _ =>
    rw [List.append_assoc]
    exact head?_item hg rfl
  | block hg _ _ =>
    rw [List.append_assoc]
    exact head?_item hg rfl
  | declaration hg hu _ _ =>
    rw [List.append_assoc]
    refine head?_item hg ((starts_declaration hu).append.imp fun c hc => ?_)
    simp [isItemStart, hc]

theorem declarationEnd_of_head (h : (skipGap s).head?.all isItemStart) : DeclarationEnd s := by
  -- nothing but an item or the end comes next, so no sign of a type does
  have hne : ∀ c, isItemStart c = false → (skipGap s).head? ≠ some c := by
    intro c hc hs
    simp [hs, hc] at h
  refine ⟨⟨⟨?_, hne '[' rfl⟩, ?_⟩, hne ';' rfl⟩
  · intro hdot
    obtain ⟨cs, rfl⟩ := List.head?_eq_some_iff.1 hdot
    exact hne '.' rfl rfl
  · intro r' hbar
    exact absurd (by rw [hbar]; rfl) (hne '|' rfl)

theorem declarationEnd_items (h : Items s is) : DeclarationEnd s :=
  declarationEnd_of_head (head?_items h)

theorem item_ok : (item s).map Parsed.pair = .ok (i, r) ↔
    (∃ c, (comment? s).map Parsed.pair = some (c, r) ∧ i = .comment c) ∨
      comment? s = none ∧ (declaration s).map Parsed.pair = .ok (i, r) := by
  rw [item]
  rcases comment? s with _ | ⟨c, s₁, h₁⟩
  · simp
  · simp only [except_map_ok, Option.map_some, Parsed.pair_map, Parsed.pair_mk, Prod.map_apply,
      id_eq, Except.ok.injEq, Option.some.injEq, Prod.mk.injEq, and_assoc, exists_eq_left',
      reduceCtorEq, false_and, or_false]
    exact and_comm.trans (and_congr Iff.rfl eq_comm)

theorem items_cons (hg : Gap g) (hs : NoGap s) (h : (item s).map Parsed.pair = .ok (i, r)) :
    items (g ++ s) = (items r).map (i :: ·) := by
  obtain ⟨hlt, hitem⟩ := Parsed.map_pair_ok.1 h
  have hskip : skipGap (g ++ s) = s := skipGap_append_eq hg hs
  rw [items]
  split
  · next hnil =>
    rw [hskip] at hnil
    simp [hnil] at hlt
  · next c cs hcons =>
    obtain rfl := hskip.symm.trans hcons
    split
    · next e he => cases hitem.symm.trans he
    · next first rest hrest he =>
      cases hitem.symm.trans he
      cases items r <;> rfl

theorem items_cons_ok (hg : Gap g) (hs : NoGap s) (hi : (item s).map Parsed.pair = .ok (i, r))
    (h : items (g ++ s) = .ok is) : ∃ others, items r = .ok others ∧ is = i :: others := by
  rw [items_cons hg hs hi] at h
  cases hr : items r with
  | error e =>
    rw [hr] at h
    cases h
  | ok others =>
    rw [hr] at h
    cases h
    exact ⟨others, rfl, rfl⟩

theorem items_ok (hg : Gap g) (hs : NoGap (c :: cs)) (h : items (g ++ c :: cs) = .ok is) :
    ∃ i r others, (item (c :: cs)).map Parsed.pair = .ok (i, r) ∧ items r = .ok others ∧
      is = i :: others := by
  have hskip : skipGap (g ++ c :: cs) = c :: cs := skipGap_append_eq hg hs
  generalize g ++ c :: cs = s at h hskip
  fun_induction items s with
  | case1 s hnil => cases hskip.symm.trans hnil
  | case2 | case3 => cases h
  | case4 s d ds hcons first r hlt hitem _ others hrest _ =>
    cases h
    cases hskip.symm.trans hcons
    exact ⟨first, r, others, Parsed.map_pair_ok.2 ⟨hlt, hitem⟩, hrest, rfl⟩

theorem noGap_declaration (h : DeclarationText u m name t) : NoGap (u ++ r) :=
  (starts_declaration h).append.noGap isIdentStart_of_isGap

theorem item_declaration (hu : DeclarationText u m name t) (hr : DeclarationEnd r)
    (ha : Apart u r) :
    (item (u ++ r)).map Parsed.pair = .ok (.declaration m (String.ofList name) t, r) :=
  item_ok.2 (.inr ⟨comment?_eq_none ((starts_declaration hu).append.head?_ne rfl),
    declaration_complete hu hr ha⟩)

theorem items_sound (h : items s = .ok is) : Items s is := by
  fun_induction items s generalizing is with
  | case1 s hskip =>
    cases h
    obtain ⟨g, hg, hs⟩ := exists_gap s
    rw [hskip, List.append_nil] at hs
    exact hs ▸ .none hg
  | case2 | case3 => cases h
  | case4 s c cs hskip first r hlt hitem _ others hrest ih =>
    cases h
    obtain ⟨g, hg, hs⟩ := exists_gap s
    rw [hskip] at hs
    have hrest := ih hrest
    rcases item_ok.1 (Parsed.map_pair_ok.2 ⟨hlt, hitem⟩) with
      ⟨comment, hcomment, rfl⟩ | ⟨-, hdeclaration⟩
    -- the reader tries comments first
    · rcases comment?_iff.1 hcomment with ⟨u, hu, hr, hcs, rfl⟩ | ⟨u, hu, hcs, rfl⟩
      · rw [hs, hcs, ← List.append_assoc]
        exact .line hg hu hr hrest
      · rw [hs, hcs, ← List.append_assoc]
        exact .block hg hu hrest
    · obtain ⟨u, m, name, t, hu, hapart, rfl, hcs⟩ := declaration_sound hdeclaration
      rw [hs, hcs, ← List.append_assoc]
      exact .declaration hg hu hapart hrest

theorem items_complete (h : Items s is) : items s = .ok is := by
  -- each item is read up to where the next one begins
  induction h with
  | @none g hg =>
    have hskip : skipGap g = [] := by
      rw [← List.append_nil g, skipGap_append hg]
      rfl
    rw [items]
    split
    · rfl
    · next c cs hcons => cases hskip.symm.trans hcons
  | @line g u s is hg hu hr _ ih =>
    have hslash : NoGap ('/' :: '/' :: u ++ s) := rfl
    rw [List.append_assoc, items_cons hg hslash, ih]
    · rfl
    · exact item_ok.2 (.inl ⟨_, comment?_iff.2 (.inl ⟨u, hu, hr, rfl, rfl⟩), rfl⟩)
  | @block g u s is hg hu _ ih =>
    have hslash : NoGap ('/' :: '*' :: u ++ '*' :: '/' :: s) := rfl
    rw [List.append_assoc, items_cons hg hslash, ih]
    · rfl
    · exact item_ok.2 (.inl ⟨_, comment?_iff.2 (.inr ⟨u, hu, rfl, rfl⟩), rfl⟩)
  | declaration hg hu ha hs ih =>
    have hitem := item_declaration hu (declarationEnd_items hs) ha
    rw [List.append_assoc, items_cons hg (noGap_declaration hu) hitem, ih]
    rfl

end ModelTypes.Parser

namespace ModelTypes

/-! ## Files -/

def Declaration.items (d : Declaration) : List Item :=
  d.comments.map .comment ++ [.declaration d.modifier d.name d.type]

namespace SourceFile

def items (file : SourceFile) : List Item :=
  file.header.map .comment ++ file.declarations.flatMap Declaration.items ++
    file.trailing.map .comment

/-- Comments with no declaration before them are in the header. -/
def Grouped (file : SourceFile) : Prop :=
  match file.declarations with
  | [] => file.trailing = []
  | d :: _ => d.comments = []

theorem group_items {is : List Item} {pending : List Comment} :
    (group pending is).1.flatMap Declaration.items ++ (group pending is).2.map .comment =
      pending.map .comment ++ is := by
  -- comments wait in `pending` for the declaration that they belong to
  induction is generalizing pending with
  | nil => simp [group]
  | cons i is ih =>
    cases i with
    | comment c => simpa [group] using @ih (pending ++ [c])
    | declaration m name t => simpa [group, Declaration.items] using @ih []

theorem group_comments {is : List Item} {pending cs : List Comment} :
    group pending (cs.map .comment ++ is) = group (pending ++ cs) is := by
  induction cs generalizing pending with
  | nil => simp
  | cons c cs ih => simp [group, ih]

theorem group_declarations {ds : List Declaration} {cs : List Comment} :
    group [] (ds.flatMap Declaration.items ++ cs.map .comment) = (ds, cs) := by
  induction ds with
  | nil => simpa [group] using @group_comments [] [] cs
  | cons d ds ih => simp [Declaration.items, List.append_assoc, group_comments, group, ih]

theorem leadingComments_append {is : List Item} :
    (leadingComments is).1.map .comment ++ (leadingComments is).2 = is := by
  fun_induction leadingComments is with
  | case1 c is cs rest hrec ih => simpa [hrec] using ih
  | case2 is hne => rfl

theorem leadingComments_comments {is : List Item} {cs : List Comment} :
    leadingComments (cs.map .comment ++ is) =
      (cs ++ (leadingComments is).1, (leadingComments is).2) := by
  induction cs with
  | nil => rfl
  | cons c cs ih => simp [leadingComments, ih]

theorem items_ofItems {is : List Item} : (ofItems is).items = is := by
  have hrest := @group_items (leadingComments is).2 []
  simp only [List.map_nil, List.nil_append] at hrest
  rw [items, ofItems, List.append_assoc, hrest, leadingComments_append]

theorem grouped_ofItems {is : List Item} : (ofItems is).Grouped := by
  rw [ofItems]
  fun_induction leadingComments is with
  | case1 c is cs rest hrec ih =>
    rw [hrec] at ih
    exact ih
  | case2 is hne =>
    cases is with
    | nil => rfl
    | cons i is =>
      cases i with
      | comment c => exact absurd rfl (hne c is)
      | declaration m name t => rfl

theorem ofItems_items {file : SourceFile} (h : file.Grouped) : ofItems file.items = file := by
  obtain ⟨header, declarations, trailing⟩ := file
  rw [ofItems, items, List.append_assoc, leadingComments_comments]
  -- without declarations all comments are in the header
  cases declarations with
  | nil =>
    obtain rfl : trailing = [] := h
    simp [leadingComments, group]
  | cons d ds =>
    obtain ⟨comments, m, name, t⟩ := d
    obtain rfl : comments = [] := h
    simp [Declaration.items, leadingComments, group, group_declarations]

theorem parse_sound (h : parse s = .ok file) : Grammar.Items s file.items ∧ file.Grouped := by
  rw [parse] at h
  split at h
  · next is his =>
    cases h
    rw [items_ofItems]
    exact ⟨Parser.items_sound his, grouped_ofItems⟩
  · cases h

theorem parse_complete (hs : Grammar.Items s file.items) (hf : file.Grouped) :
    parse s = .ok file := by
  rw [parse, Parser.items_complete hs]
  exact congrArg Except.ok (ofItems_items hf)

/-- A file is accepted exactly if the grammar has it, and is then read as the grammar says. -/
theorem parse_ok_iff_grammar : parse s = .ok file ↔ Grammar.Items s file.items ∧ file.Grouped :=
  ⟨parse_sound, fun h => parse_complete h.1 h.2⟩

end SourceFile

end ModelTypes
