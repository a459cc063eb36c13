import ModelTypes.Proofs.Declaration.RoundTrip

/-!
# Normal files

A file that is printed and read back comes out normalized. The types are normal then, line comments
have no blanks at their ends, and no comment stands anywhere but where reading puts it. Every normal
file is what some text is read as, and nothing else is.
-/

namespace ModelTypes

open Text (isIdentifier)

theorem TypeExpr.normal_iff {t : TypeExpr} : t.Normal ↔ t.Printable ∧ t.normalize = t := by
  constructor
  · intro h
    exact ⟨h.printable, h.normalize_eq⟩
  · rintro ⟨h, heq⟩
    rw [← heq]
    exact h.normal_normalize

theorem Item.normal_declaration_iff {m : Modifier} {name : String} {t : TypeExpr} :
    (Item.declaration m name t).Normal ↔ isIdentifier name.toList ∧ t.Normal := by
  simp [Item.Normal, Item.Printable, Item.normalize, TypeExpr.normal_iff, and_assoc]

/-- A comment that can be printed and is read back as it is. -/
def Comment.Normal (c : Comment) : Prop :=
  c.Printable ∧ c.normalize = c

theorem Item.normal_comment_iff {c : Comment} : (Item.comment c).Normal ↔ c.Normal := by
  simp [Item.Normal, Item.Printable, Item.normalize, Comment.Normal]

/-! ## Normalizing -/

namespace Declaration

def normalize (d : Declaration) : Declaration :=
  { d with comments := d.comments.map Comment.normalize, type := d.type.normalize }

theorem items_normalize {d : Declaration} : d.normalize.items = d.items.map Item.normalize := by
  simp [items, normalize, Item.normalize, Function.comp_def]

end Declaration

namespace SourceFile

/-- The normal form of a file. What stands before the first declaration, or in a file without any,
is its header. -/
def normalize (file : SourceFile) : SourceFile :=
  match file.declarations with
  | [] => ⟨(file.header ++ file.trailing).map Comment.normalize, [], []⟩
  | d :: ds =>
    { header := (file.header ++ d.comments).map Comment.normalize
      declarations := { d.normalize with comments := [] } :: ds.map Declaration.normalize
      trailing := file.trailing.map Comment.normalize }

variable {file : SourceFile}

theorem grouped_normalize : file.normalize.Grouped := by
  unfold normalize
  split <;> rfl

theorem items_normalize : file.normalize.items = file.items.map Item.normalize := by
  obtain ⟨header, declarations, trailing⟩ := file
  cases declarations with
  | nil => simp [normalize, items, Item.normalize, Function.comp_def]
  | cons d ds =>
    have hds : (ds.map Declaration.normalize).flatMap Declaration.items =
        (ds.flatMap Declaration.items).map Item.normalize := by
      simp [List.flatMap_map, List.map_flatMap, Declaration.items_normalize]
    simp only [normalize, items, List.flatMap_cons, hds]
    simp [Declaration.items, Declaration.normalize, Item.normalize, Function.comp_def]

theorem normalize_eq_iff :
    file.normalize = file ↔ file.Grouped ∧ ∀ i ∈ file.items, i.normalize = i := by
  have hsame : file.items.map Item.normalize = file.items ↔ ∀ i ∈ file.items, i.normalize = i := by
    simpa using @List.map_inj_left _ _ file.items Item.normalize id
  rw [← hsame, ← items_normalize]
  constructor
  · intro h
    exact ⟨h ▸ grouped_normalize, congrArg items h⟩
  · rintro ⟨hgrouped, hitems⟩
    -- a file is the grouping of its items
    rw [← ofItems_items (@grouped_normalize file), hitems, ofItems_items hgrouped]

/-- Files with normal comments and types, and with the comments where reading puts them. -/
structure Normal (file : SourceFile) : Prop where
  header : ∀ c ∈ file.header, c.Normal
  declarations : ∀ d ∈ file.declarations,
    isIdentifier d.name.toList ∧ d.type.Normal ∧ ∀ c ∈ d.comments, c.Normal
  trailing : ∀ c ∈ file.trailing, c.Normal
  grouped : file.Grouped

theorem normal_iff_items : file.Normal ↔ file.Grouped ∧ ∀ i ∈ file.items, i.Normal := by
  simp only [items, List.forall_mem_append, List.forall_mem_flatMap, List.forall_mem_map,
    Item.normal_comment_iff, Declaration.items, List.forall_mem_singleton,
    Item.normal_declaration_iff]
  constructor
  · intro h
    refine ⟨h.grouped, ⟨h.header, ?_⟩, h.trailing⟩
    intro d hd
    obtain ⟨hname, htype, hcomments⟩ := h.declarations d hd
    exact ⟨hcomments, hname, htype⟩
  · rintro ⟨hgrouped, ⟨hheader, hdeclarations⟩, htrailing⟩
    refine ⟨hheader, ?_, htrailing, hgrouped⟩
    intro d hd
    obtain ⟨hcomments, hname, htype⟩ := hdeclarations d hd
    exact ⟨hname, htype, hcomments⟩

theorem normal_iff_normalize : file.Normal ↔ file.Printable ∧ file.normalize = file := by
  rw [normal_iff_items, normalize_eq_iff]
  constructor
  · rintro ⟨hgrouped, hitems⟩
    exact ⟨fun i hi => (hitems i hi).1, hgrouped, fun i hi => (hitems i hi).2⟩
  · rintro ⟨hprintable, hgrouped, hitems⟩
    exact ⟨hgrouped, fun i hi => ⟨hprintable i hi, hitems i hi⟩⟩

/-! ## Reading what was printed -/

theorem parse_print_of_printable (h : file.Printable) (style : Style) :
    parse (file.print style) = .ok file.normalize := by
  refine parse_complete ?_ grouped_normalize
  rw [items_normalize]
  exact items_print style h

theorem normal_of_parse (h : parse s = .ok file) : file.Normal := by
  obtain ⟨hitems, hgrouped⟩ := parse_sound h
  exact normal_iff_items.2 ⟨hgrouped, normal_items hitems⟩

theorem Normal.parse_print (h : file.Normal) (style : Style) :
    parse (file.print style) = .ok file := by
  obtain ⟨hprintable, heq⟩ := normal_iff_normalize.1 h
  rw [parse_print_of_printable hprintable style, heq]

/-- Every file that can be printed is read back in its normal form, under every style, and the files
that texts are read as are the normal ones. -/
theorem parse_print_normalizes (style : Style) :
    (∀ file : SourceFile, file.Printable → parse (file.print style) = .ok file.normalize) ∧
    (∀ file : SourceFile, (∃ s, parse s = .ok file) ↔ file.Printable ∧ file.normalize = file) ∧
    (∀ file : SourceFile, file.Printable ∧ file.normalize = file ↔ file.Normal) := by
  refine ⟨fun file h => parse_print_of_printable h style, ?_, fun _ => normal_iff_normalize.symm⟩
  intro file
  rw [← normal_iff_normalize]
  constructor
  · rintro ⟨s, h⟩
    exact normal_of_parse h
  · intro h
    exact ⟨file.print style, h.parse_print style⟩

def nestedFile : SourceFile :=
  ⟨[.line " @flow \t"],
    [⟨[.block "*"], ⟨true, false⟩, "A",
      .array (.union [.union [.maybe (.union [.named "React.Node"])], .literal "*/"])⟩],
    [.line ""]⟩

theorem printable_nestedFile : nestedFile.Printable := by
  have hname : Grammar.DottedName "React.Node".toList :=
    .dotted (u := "React".toList) (v := "Node".toList) rfl (.identifier rfl)
  have htype : (TypeExpr.union [.union [.maybe (.union [.named "React.Node"])],
      .literal "*/"]).Printable := by
    refine .union (by simp) ?_
    refine List.forall_mem_cons.2 ⟨.union (by simp) ?_, List.forall_mem_singleton.2 .literal⟩
    refine List.forall_mem_singleton.2 (.maybe (.union (by simp) ?_))
    exact List.forall_mem_singleton.2 (.named hname)
  intro i hi
  simp only [items, nestedFile, Declaration.items, List.map_cons, List.map_nil, List.flatMap_cons,
    List.flatMap_nil, List.cons_append, List.nil_append, List.mem_cons, List.not_mem_nil,
    or_false] at hi
  rcases hi with rfl | rfl | rfl | rfl
  · simp [Item.Printable, Comment.Printable]
  · show ¬ ['*', '/'] <:+: ['*']
    decide
  · exact ⟨rfl, .array htype⟩
  · simp [Item.Printable, Comment.Printable]

theorem parse_print_normalizes_nested : nestedFile.Printable ∧
    parse (nestedFile.print {}) = .ok ⟨[.line " @flow", .block "*"],
      [⟨[], ⟨true, false⟩, "A", .array (.union [.maybe (.named "React.Node"), .literal "*/"])⟩],
      [.line ""]⟩ :=
  ⟨printable_nestedFile, (parse_print_normalizes {}).1 nestedFile printable_nestedFile⟩

end SourceFile

end ModelTypes
