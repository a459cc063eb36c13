import Mathlib.Tactic.ByContra
import ModelTypes.Proofs.Path.Names

/-!
# The paths above a path

Taking parents works on the text. The names of a parent are nevertheless those of the path without
the last one and without what stays in place before it, so that the paths above a path are the rungs
of a ladder down to it.
-/

namespace ModelTypes

namespace Path

open FileTree (names names_of_parts exists_parts_eq)

variable {s x q : List Char}

/-! ## Empty pieces -/

theorem dropEmptyPieces_suffix (x : List Char) : dropEmptyPieces x <:+ x := by
  induction x using dropEmptyPieces.induct with
  | case1 rest ih =>
    rw [dropEmptyPieces]
    exact ih.trans (List.suffix_cons _ _)
  | case2 rest ih =>
    rw [dropEmptyPieces]
    exact ih.trans ((List.suffix_cons _ _).trans (List.suffix_cons _ _))
  | case3 => exact List.nil_suffix
  | case4 body h1 h2 h3 =>
    have hbody := dropEmptyPieces.eq_4 body h1 h2 h3
    exact ⟨[], hbody⟩

theorem dropEmptyPieces_idem (x : List Char) :
    dropEmptyPieces (dropEmptyPieces x) = dropEmptyPieces x := by
  induction x using dropEmptyPieces.induct with
  | case1 rest ih => rw [dropEmptyPieces, ih]
  | case2 rest ih => rw [dropEmptyPieces, ih]
  | case3 => rfl
  | case4 body h1 h2 h3 =>
    have hbody := dropEmptyPieces.eq_4 body h1 h2 h3
    rw [hbody, hbody]

theorem head_ne_of_dropEmptyPieces (h : dropEmptyPieces (c :: x) = c :: x) : c ≠ '/' := by
  rintro rfl
  rw [dropEmptyPieces] at h
  have hlength := length_dropEmptyPieces_le x
  rw [h, List.length_cons] at hlength
  omega

/-- What is dropped behind a piece stays in place. A root that is a dot needs a slash behind it. -/
theorem parts_dropEmptyPieces (root : List Char) (hroot : root = [] ∨ root = ['/'] ∨ root = ['.'])
    (hdot : root = ['.'] → ∀ c, x.getLast? = some c → c = '/') :
    ∃ dots, (∀ n ∈ dots, n = "" ∨ n = ".") ∧ parts (root ++ x.reverse) =
      names (String.ofList (root ++ (dropEmptyPieces x).reverse)) ++ dots := by
  -- each piece that is dropped is one more name that stays in place
  induction x using dropEmptyPieces.induct with
  | case1 rest ih =>
    have hrest : root = ['.'] → ∀ c, rest.getLast? = some c → c = '/' := by
      intro hr c hc
      refine hdot hr c ?_
      rw [List.getLast?_cons, hc]
      rfl
    obtain ⟨dots, hdots, hparts⟩ := ih hrest
    refine ⟨dots ++ [""], ?_, ?_⟩
    · simpa [or_imp, forall_and] using hdots
    · rw [List.reverse_cons, ← List.append_assoc, parts_append, hparts, dropEmptyPieces,
        List.append_assoc]
      rfl
  | case2 rest ih =>
    have hrest : root = ['.'] → ∀ c, rest.getLast? = some c → c = '/' := by
      intro hr c hc
      refine hdot hr c ?_
      rw [List.getLast?_cons, List.getLast?_cons, hc]
      rfl
    obtain ⟨dots, hdots, hparts⟩ := ih hrest
    refine ⟨dots ++ ["."], ?_, ?_⟩
    · simpa [or_imp, forall_and] using hdots
    · have htext : root ++ ('.' :: '/' :: rest).reverse =
          (root ++ rest.reverse) ++ '/' :: ['.'] := by
        simp
      rw [htext, parts_append, hparts, dropEmptyPieces, List.append_assoc]
      rfl
  | case3 =>
    rcases hroot with rfl | rfl | rfl
    · exact ⟨["."], by simp, rfl⟩
    · exact ⟨["", "."], by simp, rfl⟩
    · exact absurd (hdot rfl '.' rfl) (by decide)
  | case4 body h1 h2 h3 =>
    rw [dropEmptyPieces.eq_4 body h1 h2 h3]
    obtain ⟨dots, hdots, hparts⟩ := exists_parts_eq (String.ofList (root ++ body.reverse))
    rw [String.toList_ofList] at hparts
    exact ⟨dots, fun n hn => .inl (hdots n hn), hparts⟩

/-! ## Parents -/

def beforeLast (body : List Char) : List Char :=
  (body.dropWhile (· ≠ '/')).drop 1

theorem beforeLast_suffix (body : List Char) : beforeLast body <:+ body :=
  (List.drop_suffix _ _).trans (List.dropWhile_suffix _)

/-- A text is a root and a body. A leading dot is a root only as a piece of its own. -/
inductive Rooted : List Char → List Char → Prop
  | slash : Rooted ['/'] body
  | dot (h : ∀ c, body.head? = some c → c = '/') : Rooted ['.'] body
  | none (h : rootLength body = 0) : Rooted [] body

theorem exists_rooted (s : List Char) : ∃ root body, s = root ++ body ∧ Rooted root body := by
  cases hs : rootLength s with
  | zero => exact ⟨[], s, rfl, .none hs⟩
  | succ n =>
    unfold rootLength at hs
    split at hs
    · next rest => exact ⟨['/'], rest, rfl, .slash⟩
    · exact ⟨['.'], [], rfl, .dot (by simp)⟩
    · next rest => exact ⟨['.'], '/' :: rest, rfl, .dot (by simp [eq_comm])⟩
    · cases hs

theorem Rooted.length (h : Rooted root body) : rootLength (root ++ body) = root.length := by
  cases h with
  | slash => rfl
  | dot h =>
    cases body with
    | nil => rfl
    | cons c body =>
      obtain rfl := h c rfl
      rfl
  | none h => exact h

theorem Rooted.of_prefix (h : Rooted root body) (hup : front <+: body) (hdot : front ≠ ['.']) :
    Rooted root front := by
  obtain ⟨rest, rfl⟩ := hup
  cases h with
  | slash => exact .slash
  | dot h =>
    refine .dot fun c hc => h c ?_
    rw [List.head?_append, hc]
    rfl
  | none h =>
    refine .none ?_
    unfold rootLength at h ⊢
    split
    · simp at h
    · exact absurd rfl hdot
    · simp at h
    · rfl

theorem Rooted.isAbsolute (h : Rooted root body) :
    isAbsolute (String.ofList (root ++ body)) = (root == ['/']) := by
  unfold Path.isAbsolute
  rw [String.toList_ofList]
  cases h with
  | slash => rfl
  | dot h => rfl
  | none h =>
    cases body with
    | nil => rfl
    | cons c body =>
      have hc : c ≠ '/' := by
        rintro rfl
        simp [rootLength] at h
      simpa using hc

theorem parentOf?_rooted (h : Rooted root body) : parentOf? (root ++ body) =
    match dropEmptyPieces body.reverse with
    | [] => if (root ++ body).head? = some '.' then some [] else none
    | c :: x => some (root ++ (dropEmptyPieces (beforeLast (c :: x))).reverse) := by
  unfold parentOf?
  rw [h.length, List.drop_left, List.take_left]
  rfl

theorem exists_last_piece (h : dropEmptyPieces (c :: x) = c :: x) :
    ∃ last, last ≠ [] ∧ '/' ∉ last ∧ (c :: x = last.reverse ∧ beforeLast (c :: x) = [] ∨
      c :: x = last.reverse ++ '/' :: beforeLast (c :: x)) := by
  unfold beforeLast
  have hc := head_ne_of_dropEmptyPieces h
  have hsplit := @List.takeWhile_append_dropWhile _ (· ≠ '/') (c :: x)
  refine ⟨((c :: x).takeWhile (· ≠ '/')).reverse, ?_, ?_, ?_⟩
  · simp [hc]
  · intro hmem
    simpa using List.mem_takeWhile_imp (List.mem_reverse.1 hmem)
  · rw [List.reverse_reverse]
    cases hrest : (c :: x).dropWhile (· ≠ '/') with
    | nil =>
      rw [hrest, List.append_nil] at hsplit
      exact .inl ⟨hsplit.symm, rfl⟩
    | cons d before =>
      have hd : d = '/' := by
        have := List.head?_dropWhile_not (· ≠ '/') (c :: x)
        rw [hrest] at this
        simpa using this
      rw [hrest, hd] at hsplit
      exact .inr hsplit.symm

/-- A path leads from another to one of its names, by way of nothing else. -/
structure Rung (path parent : Path) : Prop where
  names : ∃ dots last, (∀ n ∈ dots, n = "" ∨ n = ".") ∧
    names path = names parent ++ dots ++ [last]
  absolute : isAbsolute path = isAbsolute parent
  text : parent.toList <+: path.toList

theorem names_rooted (h : Rooted root body) (hs : dropEmptyPieces (c :: x) = c :: x)
    (hbody : body.reverse = c :: x) : ∃ dots last, (∀ n ∈ dots, n = "" ∨ n = ".") ∧
      names (String.ofList (root ++ body)) = names (String.ofList
        (root ++ (dropEmptyPieces (beforeLast (c :: x))).reverse)) ++ dots ++ [last] := by
  obtain ⟨last, hne, hslash, ⟨hx, hbefore⟩ | hx⟩ := exists_last_piece hs
  · -- the only piece: what is left of the path is its root
    rw [hx, List.reverse_inj] at hbody
    subst hbody
    rw [hbefore]
    cases h with
    | slash =>
      refine ⟨[""], String.ofList body, by simp, names_of_parts ?_ (by simpa using hne)⟩
      rw [String.toList_ofList]
      show parts ([] ++ '/' :: body) = _
      rw [parts_append, parts_of_not_mem hslash]
      rfl
    | dot h =>
      cases body with
      | nil => exact absurd rfl hne
      | cons d body =>
        obtain rfl := h d rfl
        simp at hslash
    | none h =>
      refine ⟨[], String.ofList body, by simp, names_of_parts ?_ (by simpa using hne)⟩
      rw [String.toList_ofList, List.nil_append, parts_of_not_mem hslash]
      rfl
  · -- a piece behind others: empty ones between them name nothing
    generalize beforeLast (c :: x) = before at hx
    have htext : body = before.reverse ++ '/' :: last := by
      rw [← List.reverse_reverse body, hbody, hx]
      simp
    subst htext
    have hroot : root = [] ∨ root = ['/'] ∨ root = ['.'] := by
      cases h <;> simp
    have hdot : root = ['.'] → ∀ c, before.getLast? = some c → c = '/' := by
      rintro rfl c hc
      cases h with
      | dot h =>
        refine h c ?_
        rw [List.head?_append, List.head?_reverse, hc]
        rfl
    obtain ⟨dots, hdots, hparts⟩ := parts_dropEmptyPieces root hroot hdot
    refine ⟨dots, String.ofList last, hdots, names_of_parts ?_ (by simpa using hne)⟩
    rw [String.toList_ofList, ← List.append_assoc, parts_append, parts_of_not_mem hslash, hparts]

theorem exists_parent (h : Rooted root body) (hs : dropEmptyPieces body.reverse = body.reverse)
    (hne : body ≠ []) : ∃ front, parentOf? (root ++ body) = some (root ++ front) ∧
      Rooted root front ∧ dropEmptyPieces front.reverse = front.reverse ∧
      Rung (String.ofList (root ++ body)) (String.ofList (root ++ front)) := by
  cases hbody : body.reverse with
  | nil => exact absurd (List.reverse_eq_nil_iff.1 hbody) hne
  | cons c x =>
    have hparent := parentOf?_rooted h
    rw [hs, hbody] at hparent
    rw [hbody] at hs
    have hfront : (dropEmptyPieces (beforeLast (c :: x))).reverse <+: body := by
      rw [← List.reverse_reverse body, List.reverse_prefix, hbody]
      exact (dropEmptyPieces_suffix _).trans (beforeLast_suffix _)
    -- a dot alone would have been dropped as well
    have hdot : (dropEmptyPieces (beforeLast (c :: x))).reverse ≠ ['.'] := by
      intro hdot
      have hidem := dropEmptyPieces_idem (beforeLast (c :: x))
      rw [List.reverse_eq_cons_iff.1 hdot] at hidem
      contradiction
    have hrooted := h.of_prefix hfront hdot
    refine ⟨_, hparent, hrooted, ?_, names_rooted h hs hbody, ?_, ?_⟩
    · rw [List.reverse_reverse, dropEmptyPieces_idem]
    · rw [h.isAbsolute, hrooted.isAbsolute]
    · rw [String.toList_ofList, String.toList_ofList]
      exact (List.prefix_append_right_inj root).2 hfront

/-- Paths of which each is a rung above the one before, up to the root or to nothing. -/
inductive Ladder : List Path → Prop
  | empty : Ladder [""]
  | root : Ladder ["/"]
  | rung (h : Rung path parent) (hladder : Ladder (parent :: above)) :
      Ladder (path :: parent :: above)

theorem Rung.ne_empty (h : Rung path parent) : path ≠ "" := by
  rintro rfl
  obtain ⟨dots, last, -, hlast⟩ := h.names
  have hnil : FileTree.names "" = [] := rfl
  rw [hnil] at hlast
  simp at hlast

theorem Ladder.isAbsolute (h : Ladder (path :: above)) (hne : path ≠ "")
    (hnames : names path = []) : isAbsolute path = true := by
  cases h with
  | empty => exact absurd rfl hne
  | root => rfl
  | rung h =>
    obtain ⟨dots, last, -, hlast⟩ := h.names
    rw [hnames] at hlast
    simp at hlast

theorem ancestorsOf_none (h : parentOf? s = none) : ancestorsOf s = [s] := by
  rw [ancestorsOf]
  split
  · rfl
  · next parent hparent => cases h.symm.trans hparent

theorem ancestorsOf_some (h : parentOf? s = some q) : ancestorsOf s = s :: ancestorsOf q := by
  rw [ancestorsOf]
  split
  · next hparent => cases h.symm.trans hparent
  · next parent hparent =>
    cases h.symm.trans hparent
    rfl

theorem exists_ancestorsOf (s : List Char) : ∃ above, ancestorsOf s = s :: above := by
  cases h : parentOf? s with
  | none => exact ⟨[], ancestorsOf_none h⟩
  | some q => exact ⟨ancestorsOf q, ancestorsOf_some h⟩

theorem head?_ancestors (path : Path) : (ancestors path).head? = some path := by
  obtain ⟨above, habove⟩ := exists_ancestorsOf path.toList
  rw [ancestors, habove, List.map_cons, String.ofList_toList]
  rfl

theorem Ladder.ancestorsOf (hladder : Ladder ((ancestorsOf q).map String.ofList))
    (h : parentOf? s = some q) (hrung : Rung (String.ofList s) (String.ofList q)) :
    Ladder ((Path.ancestorsOf s).map String.ofList) := by
  obtain ⟨above, habove⟩ := exists_ancestorsOf q
  rw [ancestorsOf_some h, List.map_cons, habove, List.map_cons]
  rw [habove, List.map_cons] at hladder
  exact .rung hrung hladder

theorem ladder_rooted (h : Rooted root body) (hs : dropEmptyPieces body.reverse = body.reverse) :
    Ladder ((ancestorsOf (root ++ body)).map String.ofList) := by
  by_cases hbody : body = []
  · subst hbody
    cases h with
    | slash =>
      rw [ancestorsOf_none rfl]
      exact .root
    | dot =>
      refine Ladder.ancestorsOf (q := []) ?_ rfl ?_
      · rw [ancestorsOf_none rfl]
        exact .empty
      · exact ⟨⟨[], ".", by simp, rfl⟩, rfl, List.nil_prefix⟩
    | none =>
      rw [ancestorsOf_none rfl]
      exact .empty
  · obtain ⟨front, hparent, hrooted, hfront, hrung⟩ := exists_parent h hs hbody
    have hlength := length_parentOf?_lt hparent
    exact (ladder_rooted hrooted hfront).ancestorsOf hparent hrung
termination_by body.length
decreasing_by
  simp only [List.length_append] at hlength
  omega

theorem dropEmptyPieces_plain (hslash : c ≠ '/') (hdot : c ≠ '.') :
    dropEmptyPieces (c :: x) = c :: x := by
  refine dropEmptyPieces.eq_4 _ ?_ ?_ ?_
  · rintro rest ⟨⟩
    exact hslash rfl
  · rintro rest ⟨⟩
    exact hdot rfl
  · rintro ⟨⟩
    exact hdot rfl

theorem ladder_ancestors {root : Path} {name : String} (hslash : '/' ∉ name.toList)
    (hdot : '.' ∉ name.toList) (hne : name ≠ "") : Ladder (ancestors (join root name)) := by
  obtain ⟨top, body, htext, hrooted⟩ := exists_rooted (join root name).toList
  unfold ancestors
  rw [htext]
  refine ladder_rooted hrooted ?_
  cases hbody : body.reverse with
  | nil => rfl
  | cons c x =>
    -- the body ends as the name does
    have hlast : (join root name).toList.getLast? = some c := by
      rw [htext, List.getLast?_append, ← List.head?_reverse, hbody]
      rfl
    have hmem : c ∈ name.toList := by
      rw [FileTree.toList_join hslash, ← List.append_assoc, List.getLast?_append] at hlast
      cases hname : name.toList.getLast? with
      | none => exact absurd (String.toList_eq_nil_iff.1 (List.getLast?_eq_none_iff.1 hname)) hne
      | some d =>
        rw [hname] at hlast
        cases hlast
        exact List.mem_of_getLast? hname
    refine dropEmptyPieces_plain ?_ ?_
    · rintro rfl
      exact hslash hmem
    · rintro rfl
      exact hdot hmem

end Path

end ModelTypes
