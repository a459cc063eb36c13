import ModelTypes.Proofs.Declaration.Items
import ModelTypes.Proofs.Declaration.Normal

/-!
# Printed text is in the grammar

The text of a printable tree spells its normal form, whatever the style and however deep the tree
is nested. `Spelled` is the invariant: a union without parentheses around it is the row of its
members, and everything else is a single one.
-/

namespace ModelTypes

open Grammar
open Text (isGap isIdentifier)

/-! ## Pieces -/

theorem Style.isQuote_preferredQuote {style : Style} : Literal.isQuote style.preferredQuote := by
  rw [Style.preferredQuote]
  split <;> rfl

theorem Style.gap_indent {style : Style} : Gap style.indent := by
  intro c hc
  rw [Style.indent] at hc
  split at hc
  · obtain rfl := List.mem_singleton.1 hc
    rfl
  · obtain rfl := List.eq_of_mem_replicate hc
    rfl

theorem Style.gap_indentation {style : Style} {level : Nat} : Gap (style.indentation level) := by
  intro c hc
  obtain ⟨_, hl, hc⟩ := List.mem_flatten.1 hc
  obtain rfl := List.eq_of_mem_replicate hl
  exact Style.gap_indent c hc

theorem gap_newline (hg : Gap g) : Gap ('\n' :: g) :=
  List.forall_mem_cons.2 ⟨rfl, hg⟩

theorem members_append (hu : Members u ts) (hw : Sign '|' w) (hg : Gap g) (hv : Members v ts') :
    Members (u ++ w ++ g ++ v) (ts ++ ts') := by
  cases hu with
  | last hu => exact .more hu hw hg hv
  | @more u t w' g' u' ts hu hw' hg' hu' =>
    have h := members_append hu' hw hg hv
    -- the second row is put behind the last member of the first
    have hassoc : u ++ w' ++ g' ++ u' ++ w ++ g ++ v = u ++ w' ++ g' ++ (u' ++ w ++ g ++ v) := by
      simp only [List.append_assoc]
    rw [hassoc]
    exact .more hu hw' hg' h

theorem members_separated {a : α} {l : List α} {f : α → List Char} {ms : α → List TypeExpr}
    (hw : Sign '|' w) (hg : Gap g) (h : ∀ b ∈ a :: l, Members (f b) (ms b)) :
    Members (f a ++ l.flatMap fun b => w ++ g ++ f b) ((a :: l).flatMap ms) := by
  -- the first text is not in the row, so that it may change
  induction l generalizing a with
  | nil => simpa using h a (by simp)
  | cons b l ih =>
    have hrest := ih fun c hc => h c (List.mem_cons_of_mem a hc)
    simpa using members_append (h a (by simp)) hw hg hrest

theorem dimensions_concat (hv : Dimensions v t t') : Dimensions (v ++ ['[', ']']) t (.array t') := by
  induction hv with
  | none => exact .array (w := ['[']) sign_self sign_self .none
  | array hw hw' _ ih =>
    rw [List.append_assoc]
    exact .array hw hw' ih

theorem typeText_of_members (hw : OptionalSign '|' leading w) (hg : Gap g)
    (hu : Members u t.members) (ht : t.Normal) : TypeText (w ++ g ++ u) t := by
  obtain ⟨first, others, hmembers, hof⟩ := ht.ofMembers_members
  rw [hmembers] at hu
  have h := TypeText.members hw hg hu
  rwa [hof] at h

theorem typeText_of_gap (hg : Gap g) (hu : Members u t.members) (ht : t.Normal) :
    TypeText (g ++ u) t := by
  have hbar : OptionalSign '|' false [] := rfl
  exact typeText_of_members hbar hg hu ht

theorem primary_named {name : String} (h : DottedName name.toList) :
    Primary name.toList (.named name) := by
  have hprimary : Primary name.toList (.named (String.ofList name.toList)) := .named h
  rwa [String.ofList_toList] at hprimary

theorem primary_literal {value : String} (h : LiteralText u value.toList) :
    Primary u (.literal value) := by
  have hprimary : Primary u (.literal (String.ofList value.toList)) := .literal h
  rwa [String.ofList_toList] at hprimary

theorem property_keyed {key : String} {marked : Bool} (hu : KeyText u key.toList)
    (hv : TypeText v t) : PropertyText (u ++ (if marked then ['?'] else []) ++ [':'] ++ v)
      ⟨key, marked, t⟩ := by
  have hmark : OptionalSign '?' marked (if marked then ['?'] else []) := optionalSign_self
  have hproperty := PropertyText.property hu hmark (sign_self (c := ':')) hv
  rwa [String.ofList_toList] at hproperty

theorem member_of_primary (h : Primary u t) : MemberText u t := by
  have hmember : MemberText (u ++ []) t := .dimensions h .none
  rwa [List.append_nil] at hmember

theorem primary_parentheses (hu : Members u t.members) (ht : t.Normal) :
    Primary ('(' :: u ++ [')']) t :=
  .parentheses (typeText_of_gap gap_nil hu ht) sign_self

theorem intercalate_cons {sep u : List Char} {us : List (List Char)} :
    sep.intercalate (u :: us) = u ++ us.flatMap (sep ++ ·) := by
  induction us generalizing u with
  | nil => simp [List.intercalate]
  | cons v us ih => rw [List.intercalate_cons_cons, ih]; simp

namespace TypeExpr

theorem keyText_printKey {style : Style} {key : List Char} : KeyText (printKey style key) key := by
  rw [printKey]
  split
  · next hkey => exact .bare hkey
  · exact .literal (Literal.literalText_encode Style.isQuote_preferredQuote)

/-! ## Types -/

section

variable {style : Style} {level : Nat} {t : TypeExpr} {ts : List TypeExpr} {p : Property}
  {ps : List Property}

/-- What the text of a type is as part of a longer one. -/
def Spelled (style : Style) (level : Nat) (t : TypeExpr) : Prop :=
  Members (t.print style level) t.normalize.members ∧
    (t.isUnion = false → MemberText (t.print style level) t.normalize)

theorem spelled_of_member (ht : t.isUnion = false)
    (h : MemberText (t.print style level) t.normalize) : Spelled style level t := by
  rw [Spelled, members_of_not_isUnion (isUnion_normalize ht)]
  exact ⟨.last h, fun _ => h⟩

theorem Spelled.member (h : Spelled style level t) (ht : t.Printable)
    (hc : c = false → t.isUnion = false) :
    MemberText (parenthesizeIf c (t.print style level)) t.normalize := by
  -- with parentheses a union is a member like any other
  cases c with
  | true => exact member_of_primary (primary_parentheses h.1 ht.normal_normalize)
  | false => exact h.2 (hc rfl)

theorem isMaybe_normalize (h : t.isUnion = false) : t.normalize.isMaybe = t.isMaybe := by
  cases t <;> first | rfl | cases h

theorem Spelled.dimensions (h : Spelled style level t) (ht : t.Printable) :
    ∃ u v t', Primary u t' ∧ Dimensions v t' t.normalize ∧
      parenthesizeIf (t.isUnion || t.isMaybe) (t.print style level) = u ++ v := by
  cases hc : t.isUnion || t.isMaybe with
  | true =>
    exact ⟨_, [], _, primary_parentheses h.1 ht.normal_normalize, .none, by simp [parenthesizeIf]⟩
  | false =>
    obtain ⟨hunion, hmaybe⟩ := Bool.or_eq_false_iff.1 hc
    have hmember := h.2 hunion
    -- a member that is no `?` type is a primary with dimensions
    generalize hu : t.print style level = u at hmember
    rw [← isMaybe_normalize hunion] at hmaybe
    generalize t.normalize = t' at hmember hmaybe ⊢
    cases hmember with
    | maybe _ _ => cases hmaybe
    | dimensions hprimary hv => exact ⟨_, _, _, hprimary, hv, rfl⟩

def printMember (style : Style) (level : Nat) (t : TypeExpr) : List Char :=
  parenthesizeIf t.isMaybe (t.print style level)

theorem Spelled.members (h : Spelled style level t) (ht : t.Printable) :
    Members (printMember style level t) t.normalize.members := by
  cases hc : t.isMaybe with
  | true =>
    -- a `?` type is put in parentheses here, although it need not be
    have hunion : t.isUnion = false := by cases t <;> first | rfl | cases hc
    rw [members_of_not_isUnion (isUnion_normalize hunion)]
    exact .last (h.member ht fun _ => hunion)
  | false =>
    rw [printMember, hc]
    exact h.1

theorem printMembers_eq : printMembers style level ts = ts.map (printMember style level) := by
  induction ts with
  | nil => rfl
  | cons t ts ih => rw [printMembers, ih, List.map_cons, printMember]

theorem members_normalize_union :
    (union (t :: ts)).normalize.members = (t :: ts).flatMap fun m => m.normalize.members := by
  rw [normalize, members_ofMembers, normalizeMembers_eq, ← List.map_cons, List.flatMap_map]

def printProperty (style : Style) (level : Nat) (p : Property) : List Char :=
  printKey style p.key.toList ++ (if p.optional then ['?'] else []) ++ [':', ' '] ++
    p.value.print style level

theorem printProperties_cons : printProperties style level (p :: ps) =
    '\n' :: style.indentation level ++ (printProperty style level p ++
      ((if !ps.isEmpty || style.trailingCommaInObjects then [','] else []) ++
        printProperties style level ps)) := by
  obtain ⟨key, marked, t⟩ := p
  simp [printProperties, printProperty]

theorem Spelled.property (h : Spelled style level p.value) (hp : p.value.Printable) :
    PropertyText (printProperty style level p) { p with value := p.value.normalize } := by
  have hvalue := typeText_of_gap gap_space h.1 hp.normal_normalize
  have hkey : KeyText (printKey style p.key.toList) p.key.toList := keyText_printKey
  have hproperty : PropertyText _ ⟨p.key, p.optional, p.value.normalize⟩ :=
    property_keyed hkey hvalue
  simpa [printProperty] using hproperty

theorem properties_print (h : ∀ q ∈ p :: ps, Spelled style level q.value)
    (hp : ∀ q ∈ p :: ps, q.value.Printable) :
    ∃ u, Properties u (normalizeProperties (p :: ps)) ∧
      printProperties style level (p :: ps) = '\n' :: style.indentation level ++ u := by
  have hproperty := (h p (by simp)).property (hp p (by simp))
  rw [normalizeProperties_eq, List.map_cons, printProperties_cons]
  -- the comma of a property depends on whether another one follows
  induction ps generalizing p with
  | nil =>
    have hcomma : OptionalSeparator (if style.trailingCommaInObjects then [','] else []) := by
      split
      · exact .inr (.inl sign_self)
      · exact .inl rfl
    exact ⟨_, .last hproperty hcomma, by simp [printProperties]⟩
  | cons q ps ih =>
    obtain ⟨u, hu, hprint⟩ := ih (fun r hr => h r (List.mem_cons_of_mem p hr))
      (fun r hr => hp r (List.mem_cons_of_mem p hr))
      ((h q (by simp)).property (hp q (by simp)))
    rw [printProperties_cons, hprint]
    have hgap : Gap ('\n' :: style.indentation level) := gap_newline Style.gap_indentation
    exact ⟨_, .more hproperty (.inl sign_self) hgap hu, by simp⟩

theorem print_spelled (ht : t.Printable) : Spelled style level t := by
  -- the level is general, since properties are printed one level deeper
  induction ht generalizing level with
  | named hname => exact spelled_of_member rfl (member_of_primary (primary_named hname))
  | literal =>
    exact spelled_of_member rfl (member_of_primary (primary_literal
      (Literal.literalText_encode Style.isQuote_preferredQuote)))
  | @maybe t ht ih => exact spelled_of_member rfl (.maybe gap_nil (ih.member ht id))
  | @array t ht ih =>
    have hspelled : Spelled style level t := ih
    obtain ⟨u, v, t', hu, hv, hprint⟩ := hspelled.dimensions ht
    refine spelled_of_member rfl ?_
    rw [print, hprint, List.append_assoc]
    exact .dimensions hu (dimensions_concat hv)
  | @union ms hne hms ih =>
    obtain ⟨t, ts, rfl⟩ := List.exists_cons_of_ne_nil hne
    refine ⟨?_, nofun⟩
    have hbar : Sign '|' [' ', '|'] := ⟨[' '], gap_space, rfl⟩
    rw [print, printMembers_eq, List.map_cons, intercalate_cons, List.flatMap_map,
      members_normalize_union]
    exact members_separated hbar gap_space fun m hm =>
      (ih m hm).members (hms m hm)
  | @object ps exact hps ih =>
    refine spelled_of_member rfl (member_of_primary ?_)
    cases ps with
    | nil =>
      have hobject : Primary (opening exact ++ [] ++ [] ++ [] ++ closing exact) (.object exact []) :=
        .object gap_nil (.none (.inl rfl)) gap_nil
      simpa [print, normalize, normalizeProperties] using hobject
    | cons p ps =>
      have hspelled : ∀ q ∈ p :: ps, Spelled style (level + 1) q.value := fun q hq => ih q hq
      obtain ⟨u, hu, hprint⟩ := properties_print hspelled hps
      have hgap : ∀ n, Gap ('\n' :: style.indentation n) :=
        fun n => gap_newline Style.gap_indentation
      have hobject : Primary (opening exact ++ ('\n' :: style.indentation (level + 1)) ++ u ++
          ('\n' :: style.indentation level) ++ closing exact) _ := .object (hgap _) hu (hgap _)
      rw [print, hprint, normalize]
      simpa using hobject

end

end TypeExpr

/-! ## Items -/

/-- Comments that can be printed: nothing in them ends them early. -/
def Comment.Printable : Comment → Prop
  | line text => '\n' ∉ text.toList
  | block text => ¬ ['*', '/'] <:+: text.toList

def Comment.normalize : Comment → Comment
  | line text => .line (String.ofList (Text.trimEnd text.toList))
  | block text => .block text

namespace Item

def Printable : Item → Prop
  | comment c => c.Printable
  | declaration _ name t => isIdentifier name.toList ∧ t.Printable

def normalize : Item → Item
  | comment c => .comment c.normalize
  | declaration m name t => .declaration m name t.normalize

end Item

theorem items_gap (hg : Gap g) (h : Items s is) : Items (g ++ s) is := by
  -- the gap joins the one that the first item begins with
  cases h with
  | none hg' => exact .none (hg.append hg')
  | line hg' hu hs h =>
    simp only [← List.append_assoc]
    exact .line (hg.append hg') hu hs h
  | block hg' hu h =>
    simp only [← List.append_assoc]
    exact .block (hg.append hg') hu h
  | declaration hg' hu ha h =>
    simp only [← List.append_assoc]
    exact .declaration (hg.append hg') hu ha h

theorem items_newline (h : Items s is) : Items ('\n' :: s) is :=
  items_gap (List.forall_mem_singleton.2 (rfl : isGap '\n' = true)) h

theorem items_comments {cs : List Comment} (hc : ∀ c ∈ cs, c.Printable) (h : Items s is) :
    Items (Comment.printLines cs ++ s) (cs.map (fun c => .comment c.normalize) ++ is) := by
  induction cs with
  | nil => exact h
  | cons c cs ih =>
    have hrest := items_newline (ih fun c' hc' => hc c' (by simp [hc']))
    cases c with
    | line text =>
      have hline := Items.line gap_nil (hc (.line text) (by simp)) rfl hrest
      simpa [Comment.printLines, Comment.print, Comment.normalize] using hline
    | block text =>
      have hblock := Items.block gap_nil (hc (.block text) (by simp)) hrest
      simpa [Comment.printLines, Comment.print, Comment.normalize] using hblock

namespace Declaration

variable {style : Style} {d : Declaration}

theorem optionalKeyword_print {keyword : List Char} {present : Bool} :
    OptionalKeyword keyword present (if present then keyword ++ [' '] else []) := by
  cases present with
  | true => exact ⟨[' '], gap_space, by simp, rfl⟩
  | false => rfl

theorem brokenUnion_eq {t : TypeExpr} {ts : List TypeExpr} : brokenUnion style (t :: ts) =
    '\n' :: style.indent ++ ['|'] ++ [' '] ++ (t.printMember style 1 ++ ts.flatMap fun m =>
      '\n' :: style.indent ++ ['|'] ++ [' '] ++ m.printMember style 1) := by
  simp [brokenUnion, TypeExpr.printMembers_eq, List.flatMap_map]

theorem typeText_printBody (ht : d.type.Printable) :
    TypeText (d.printBody style) d.type.normalize := by
  have hflat : TypeText (' ' :: d.type.print style 0) d.type.normalize :=
    typeText_of_gap gap_space (TypeExpr.print_spelled ht).1 ht.normal_normalize
  -- only a union that is too long for its line is broken
  rw [printBody]
  split
  · next ms hms =>
    split
    · exact hflat
    · have hnormal := ht.normal_normalize
      rw [hms] at ht hnormal ⊢
      cases ht with
      | union hne hprintable =>
        obtain ⟨t, ts, rfl⟩ := List.exists_cons_of_ne_nil hne
        have hbar : Sign '|' ('\n' :: style.indent ++ ['|']) :=
          ⟨'\n' :: style.indent, gap_newline Style.gap_indent, rfl⟩
        have hmembers : ∀ m ∈ t :: ts, Members (m.printMember style 1) m.normalize.members :=
          fun m hm => (TypeExpr.print_spelled (hprintable m hm)).members (hprintable m hm)
        have hleading : OptionalSign '|' true ('\n' :: style.indent ++ ['|']) := hbar
        rw [brokenUnion_eq]
        refine typeText_of_members hleading gap_space ?_ hnormal
        rw [TypeExpr.members_normalize_union]
        exact members_separated hbar gap_space hmembers
  · exact hflat

theorem declarationText_print (hname : isIdentifier d.name.toList) (ht : d.type.Printable) :
    DeclarationText (d.head ++ d.printBody style ++ style.terminator) d.modifier d.name.toList
      d.type.normalize := by
  have hequals : Sign '=' [' ', '='] := ⟨[' '], gap_space, rfl⟩
  have hsemi : OptionalSign ';' style.semi style.terminator := optionalSign_self
  have hdeclare : OptionalKeyword "declare".toList d.modifier.declared
      (if d.modifier.declared then "declare".toList ++ [' '] else []) := optionalKeyword_print
  have hexport : OptionalKeyword "export".toList d.modifier.exported
      (if d.modifier.exported then "export".toList ++ [' '] else []) := optionalKeyword_print
  have hbody : TypeText (d.printBody style) d.type.normalize := typeText_printBody ht
  have h := DeclarationText.declaration hdeclare hexport gap_space (List.cons_ne_nil _ _) hname hequals
    hbody hsemi
  have htext : d.head = (if d.modifier.declared then "declare".toList ++ [' '] else []) ++
      (if d.modifier.exported then "export".toList ++ [' '] else []) ++ ("type".toList ++ [' ']) ++
      d.name.toList ++ [' ', '='] := rfl
  rw [htext]
  simpa only [List.append_assoc] using h

def Printable (d : Declaration) : Prop :=
  ∀ i ∈ d.items, i.Printable

theorem items_print (style : Style) (hd : d.Printable) (h : Items s is) :
    Items (d.print style ++ '\n' :: s) (d.items.map Item.normalize ++ is) := by
  have hcomments : ∀ c ∈ d.comments, c.Printable := fun c hc =>
    hd (.comment c) (by simp [Declaration.items, hc])
  obtain ⟨hname, ht⟩ := hd (.declaration d.modifier d.name d.type) (by simp [Declaration.items])
  have hend : WordEnd ('\n' :: s) := rfl
  have htext : DeclarationText (d.head ++ d.printBody style ++ style.terminator) _ _ _ :=
    declarationText_print hname ht
  have hitems := items_comments hcomments (.declaration gap_nil htext hend.apart (items_newline h))
  rw [String.ofList_toList] at hitems
  simpa [print, Declaration.items, Item.normalize, Function.comp_def] using hitems

end Declaration

namespace SourceFile

variable {file : SourceFile} {ds : List Declaration}

def Printable (file : SourceFile) : Prop :=
  ∀ i ∈ file.items, i.Printable

theorem items_printAfter (style : Style) (multiline : Bool) (hd : ∀ d ∈ ds, d.Printable)
    (h : Items s is) : Items (printAfter style multiline ds ++ s)
      ((ds.flatMap Declaration.items).map Item.normalize ++ is) := by
  -- a blank line before a declaration depends on the one before it
  induction ds generalizing multiline with
  | nil => exact h
  | cons d ds ih =>
    obtain ⟨hfirst, hothers⟩ := List.forall_mem_cons.1 hd
    have hitems := Declaration.items_print style hfirst
      (ih ((d.print style).contains '\n') hothers)
    rw [printAfter, List.flatMap_cons, List.map_append, List.append_assoc]
    split
    · simpa using items_newline hitems
    · simpa using hitems

theorem items_printMain (style : Style) (h : file.Printable) (hs : Items s is) :
    Items (file.printMain style ++ s) (file.header.map (fun c => .comment c.normalize) ++
      ((file.declarations.flatMap Declaration.items).map Item.normalize ++ is)) := by
  have hheader : ∀ c ∈ file.header, c.Printable := fun c hc =>
    h (.comment c) (by simp [items, hc])
  have hdeclarations : ∀ d ∈ file.declarations, d.Printable := fun d hd i hi =>
    h i (by simp only [items, List.mem_append, List.mem_flatMap]; exact .inl (.inr ⟨d, hd, hi⟩))
  rw [printMain, List.append_assoc]
  refine items_comments hheader ?_
  -- the first declaration is set apart from the header, the others from the one before
  cases hds : file.declarations with
  | nil => exact hs
  | cons d ds =>
    rw [hds] at hdeclarations
    obtain ⟨hfirst, hothers⟩ := List.forall_mem_cons.1 hdeclarations
    have hitems := Declaration.items_print style hfirst
      (items_printAfter style ((d.print style).contains '\n') hothers hs)
    rw [List.flatMap_cons, List.map_append, List.append_assoc]
    split
    · simpa using hitems
    · simpa using items_newline hitems

theorem items_print (style : Style) (h : file.Printable) :
    Items (file.print style) (file.items.map Item.normalize) := by
  have htrailing : ∀ c ∈ file.trailing, c.Printable := fun c hc =>
    h (.comment c) (by simp [items, hc])
  have hend := items_comments htrailing (.none gap_nil)
  rw [List.append_nil, List.append_nil] at hend
  rw [print]
  split
  · next hempty =>
    have hmain := items_printMain style h (.none gap_nil)
    simpa [items, List.isEmpty_iff.1 hempty, Function.comp_def, Item.normalize] using hmain
  · split
    · have hmain := items_printMain style h hend
      simpa [items, Function.comp_def, Item.normalize] using hmain
    · have hmain := items_printMain style h (items_newline hend)
      simpa [items, Function.comp_def, Item.normalize] using hmain

end SourceFile

end ModelTypes
