import ModelTypes.Generator
import ModelTypes.Proofs.Declaration.RoundTrip
import ModelTypes.Proofs.Json.Quoted
import ModelTypes.Proofs.Template.Builtin

/-!
# What documents denote

A document denotes a declaration file, defined here without text. The text that the built-in
template gives for the document spells exactly this file, so it is formatted, under every style, to
a text that is read as this file. Keys and values are arbitrary texts; only names that stand bare
in the text must be identifiers.
-/

namespace ModelTypes

open Grammar
open Text (isIdentifier)

/-! ## The file of a document -/

def TypeRef.expr : TypeRef → TypeExpr
  | scalar kind => .named kind.keyword
  | named name => .named name
  | listOf name => .array (.named name)

def Binding.property (marked : Bool) (b : Binding) : Property :=
  ⟨b.key, marked, b.value.expr⟩

def Declaration.declare (name : String) (type : TypeExpr) : Declaration :=
  ⟨[], ⟨true, false⟩, name, type⟩

def Alias.declaration (a : Alias) : Declaration :=
  .declare a.name (.named a.kind.keyword)

/-- The fields can be left out if they are optional or have a default value. -/
def ModelDocument.properties (d : ModelDocument) : List Property :=
  d.fields.map (fun b => b.property (b.optional || b.hasDefault)) ++
    d.associations.map (fun b => b.property b.optional)

def EnumDocument.type (d : EnumDocument) : TypeExpr :=
  match d.values with
  | [] => .named "empty"
  | [value] => .literal value
  | values => .union (values.map .literal)

def Document.declarations : Document → List Declaration
  | model d => d.aliases.map Alias.declaration ++
      [.declare (Document.model d).typeName (.object true d.properties)]
  | enum d => [.declare (Document.enum d).typeName d.type]

def Document.file (d : Document) : SourceFile :=
  ⟨[.line " @flow"], d.declarations, []⟩

/-! ## Names that stand bare -/

def TypeRef.Bare : TypeRef → Prop
  | scalar _ => True
  | named name => isIdentifier name.toList
  | listOf name => isIdentifier name.toList

/-- The names that stand bare in the text of a document are identifiers. -/
def Document.Bare (d : Document) : Prop :=
  isIdentifier d.typeName.toList ∧
    match d with
    | model m => (∀ a ∈ m.aliases, isIdentifier a.name.toList) ∧
        ∀ b ∈ m.fields ++ m.associations, b.value.Bare
    | enum _ => True

/-! ## Lines -/

theorem gap_line : Gap ['\n', ' ', ' '] :=
  gap_newline (gap_space.append gap_space)

theorem isIdentifier_keyword {kind : FieldKind} : isIdentifier kind.keyword.toList := by
  cases kind <;> decide

theorem member_typeRef {r : TypeRef} (h : r.Bare) : MemberText r.text.toList r.expr := by
  cases r with
  | scalar kind => exact member_of_primary (primary_named (.identifier isIdentifier_keyword))
  | named name => exact member_of_primary (primary_named (.identifier h))
  | listOf name =>
    rw [TypeRef.text, String.toList_append]
    exact .dimensions (primary_named (.identifier h)) (.array (w := ['[']) sign_self sign_self .none)

theorem type_single (hs : Gap s) (h : MemberText u t) : TypeText (s ++ u) t := by
  have hbar : OptionalSign '|' false [] := rfl
  exact .members hbar hs (.last h)

theorem property_binding {b : Binding} (marked : Bool) (h : b.value.Bare) :
    PropertyText (Json.encode b.key.toList ++ (if marked then ['?'] else []) ++ [':'] ++
      ([' '] ++ b.value.text.toList)) (b.property marked) := by
  have hvalue : TypeText ([' '] ++ b.value.text.toList) b.value.expr :=
    type_single gap_space (member_typeRef h)
  exact property_keyed (.literal Json.literalText_encode) hvalue

theorem properties_lines {a : α} {l : List α} {body : α → List Char} {f : α → Property}
    (h : ∀ b ∈ a :: l, PropertyText (body b) (f b)) :
    ∃ u, Properties u ((a :: l).map f) ∧
      (a :: l).flatMap (fun b => [' ', ' '] ++ body b ++ [',', '\n']) = [' ', ' '] ++ u ++ ['\n'] := by
  -- the comma of each line belongs to the property, and the line feed to the gap after it
  induction l generalizing a with
  | nil => exact ⟨_, .last (h a (by simp)) (.inr (.inl sign_self)), by simp⟩
  | cons b l ih =>
    obtain ⟨u, hu, hlines⟩ := ih fun c hc => h c (List.mem_cons_of_mem a hc)
    refine ⟨_, .more (h a (by simp)) (.inl sign_self) gap_line hu, ?_⟩
    rw [List.flatMap_cons, hlines]
    simp

theorem flatMap_lines {a : α} {l : List α} {front : List Char} {body : α → List Char} :
    '\n' :: (a :: l).flatMap (fun b => front ++ body b ++ ['\n']) =
      '\n' :: front ++ (body a ++ l.flatMap fun b => '\n' :: front ++ body b) ++ ['\n'] := by
  -- line feeds at the ends of lines are moved to their beginnings
  induction l generalizing a with
  | nil => simp
  | cons b l ih =>
    rw [List.flatMap_cons, List.append_assoc, List.singleton_append, ih]
    simp

/-! ## Declarations -/

theorem declarationText_declare {name : String} (hname : isIdentifier name.toList)
    (hu : TypeText u t) (hw : Sign ';' w) :
    DeclarationText ("declare type ".toList ++ (name.toList ++ (" =".toList ++ (u ++ w))))
      ⟨true, false⟩ name.toList t := by
  have hdeclare : OptionalKeyword "declare".toList true "declare ".toList :=
    ⟨[' '], gap_space, List.cons_ne_nil _ _, rfl⟩
  have hexport : OptionalKeyword "export".toList false [] := rfl
  have hequals : Sign '=' " =".toList := ⟨[' '], gap_space, rfl⟩
  have hsemi : OptionalSign ';' true w := hw
  have hdeclaration := DeclarationText.declaration hdeclare hexport gap_space (List.cons_ne_nil _ _)
    hname hequals hu hsemi
  -- the keyword `declare` has its gap with it, and `type` does not
  have hfront : "declare type ".toList = "declare ".toList ++ ("type".toList ++ [' ']) := rfl
  rw [hfront]
  simpa only [List.append_assoc, List.nil_append] using hdeclaration

theorem items_declare {name : String} (hname : isIdentifier name.toList) (hu : TypeText u t)
    (hw : Sign ';' w) (hs : Items s is) :
    Items ("declare type ".toList ++ (name.toList ++ (" =".toList ++ (u ++ (w ++ '\n' :: s)))))
      (.declaration ⟨true, false⟩ name t :: is) := by
  have hend : WordEnd ('\n' :: s) := rfl
  have hitems := Items.declaration gap_nil (declarationText_declare hname hu hw) hend.apart
    (items_newline hs)
  -- the grammar reads the name as characters
  rw [String.ofList_toList] at hitems
  simpa only [List.append_assoc, List.nil_append] using hitems

theorem declarationText_alias {a : Alias} (h : isIdentifier a.name.toList) : ∃ u,
    DeclarationText u ⟨true, false⟩ a.name.toList (.named a.kind.keyword) ∧
      Template.aliasLine a = u ++ ['\n'] := by
  have htype : TypeText ([' '] ++ a.kind.keyword.toList) (.named a.kind.keyword) :=
    type_single gap_space (member_of_primary (primary_named (.identifier isIdentifier_keyword)))
  have hline : Template.aliasLine a = "declare type ".toList ++ (a.name.toList ++
      ((" =".toList ++ [' ']) ++ (a.kind.keyword.toList ++ ([';'] ++ ['\n'])))) := rfl
  refine ⟨_, declarationText_declare h htype sign_self, ?_⟩
  rw [hline]
  simp only [List.append_assoc]

theorem items_aliases {as : List Alias} (h : ∀ a ∈ as, isIdentifier a.name.toList)
    (hs : Items s is) : Items (as.flatMap Template.aliasLine ++ s)
      ((as.map Alias.declaration).flatMap Declaration.items ++ is) := by
  induction as with
  | nil => exact hs
  | cons a as ih =>
    obtain ⟨hfirst, hothers⟩ := List.forall_mem_cons.1 h
    obtain ⟨u, hu, hline⟩ := declarationText_alias hfirst
    have hend : WordEnd ('\n' :: (as.flatMap Template.aliasLine ++ s)) := rfl
    have hitems := Items.declaration gap_nil hu hend.apart (items_newline (ih hothers))
    rw [String.ofList_toList] at hitems
    rw [List.flatMap_cons, hline]
    simp only [List.append_assoc, List.nil_append, List.cons_append] at hitems ⊢
    exact hitems

theorem propertyLine_eq {b : Binding} {marked : Bool} : Template.propertyLine marked b =
    [' ', ' '] ++ (Json.encode b.key.toList ++ (if marked then ['?'] else []) ++ [':'] ++
      ([' '] ++ b.value.text.toList)) ++ [',', '\n'] := by
  have hline : Template.propertyLine marked b = [' ', ' '] ++ (Json.encode b.key.toList ++
      ((if marked then ['?'] else []) ++ ([':', ' '] ++ (b.value.text.toList ++ [',', '\n'])))) := rfl
  rw [hline]
  simp only [List.append_assoc, List.cons_append, List.nil_append]

theorem type_object {bs : List (Bool × Binding)} (h : ∀ b ∈ bs, b.2.value.Bare) :
    TypeText ([' '] ++ (TypeExpr.opening true ++ ('\n' :: (bs.flatMap (fun b =>
        Template.propertyLine b.1 b.2) ++ TypeExpr.closing true))))
      (.object true (bs.map fun b => b.2.property b.1)) := by
  suffices hobject : Primary (TypeExpr.opening true ++ ('\n' :: (bs.flatMap (fun b =>
      Template.propertyLine b.1 b.2) ++ TypeExpr.closing true)))
      (.object true (bs.map fun b => b.2.property b.1)) from
    type_single gap_space (member_of_primary hobject)
  -- without properties there are two lines with nothing between them
  cases bs with
  | nil =>
    have hobject : Primary (TypeExpr.opening true ++ ['\n'] ++ [] ++ [] ++ TypeExpr.closing true)
        (.object true []) := .object (gap_newline gap_nil) (.none (.inl rfl)) gap_nil
    exact hobject
  | cons b bs =>
    obtain ⟨u, hu, hlines⟩ := properties_lines fun c hc => property_binding c.1 (h c hc)
    have hobject : Primary (TypeExpr.opening true ++ ['\n', ' ', ' '] ++ u ++ ['\n'] ++
        TypeExpr.closing true) _ := .object gap_line hu (gap_newline gap_nil)
    simp only [propertyLine_eq]
    rw [hlines]
    simpa only [List.append_assoc, List.cons_append, List.nil_append] using hobject

theorem type_values (value : String) (values : List String) : ∃ u,
    TypeText u (.ofMembers (.literal value) (values.map .literal)) ∧
      '\n' :: (value :: values).flatMap Template.valueLine = u ++ ['\n'] := by
  have hbar : Sign '|' ['\n', ' ', ' ', '|'] :=
    ⟨['\n', ' ', ' '], gap_line, rfl⟩
  -- the first `|` is no separator, but is written like one
  have hleading : OptionalSign '|' true ['\n', ' ', ' ', '|'] := hbar
  have hvalue : ∀ v ∈ value :: values, Members (Json.encode v.toList) [.literal v] := by
    intro v _
    exact .last (member_of_primary (primary_literal Json.literalText_encode))
  have hmembers := members_separated hbar gap_space hvalue
  rw [← List.map_eq_flatMap] at hmembers
  refine ⟨_, .members hleading gap_space hmembers, ?_⟩
  have hline : Template.valueLine =
      fun v => [' ', ' ', '|', ' '] ++ Json.encode v.toList ++ ['\n'] := by
    funext v
    rw [List.append_assoc]
    rfl
  rw [hline]
  exact flatMap_lines

/-! ## Documents -/

theorem items_header (hs : Items s is) :
    Items ("// @flow\n\n".toList ++ s) (.comment (.line " @flow") :: is) := by
  have hplain : '\n' ∉ " @flow".toList := by decide
  have hitems := Items.line gap_nil hplain rfl (items_newline (items_newline hs))
  have htrim : String.ofList (Text.trimEnd " @flow".toList) = " @flow" := by decide +kernel
  have hfront : "// @flow\n\n".toList = '/' :: '/' :: " @flow".toList ++ ['\n', '\n'] := rfl
  rw [htrim] at hitems
  rw [hfront]
  simpa only [List.append_assoc, List.nil_append, List.cons_append] using hitems

def ModelDocument.bindings (d : ModelDocument) : List (Bool × Binding) :=
  d.fields.map (fun b => (b.optional || b.hasDefault, b)) ++
    d.associations.map (fun b => (b.optional, b))

theorem ModelDocument.mem_of_mem_bindings {d : ModelDocument} (h : b ∈ d.bindings) :
    b.2 ∈ d.fields ++ d.associations := by
  rcases List.mem_append.1 h with h | h <;> obtain ⟨c, hc, rfl⟩ := List.mem_map.1 h
  · exact List.mem_append_left _ hc
  · exact List.mem_append_right _ hc

theorem modelText_eq {d : ModelDocument} : Template.modelText d = "// @flow\n\n".toList ++
    (d.aliases.flatMap Template.aliasLine ++ '\n' :: ("declare type ".toList ++
      ((Document.model d).typeName.toList ++ (" =".toList ++ ([' '] ++ (TypeExpr.opening true ++
        ('\n' :: (d.bindings.flatMap (fun b => Template.propertyLine b.1 b.2) ++
          TypeExpr.closing true))) ++ ([';'] ++ ['\n'])))))) := by
  have htext : Template.modelText d = "// @flow\n\n".toList ++
      (d.aliases.flatMap Template.aliasLine ++ (['\n'] ++ ("declare type ".toList ++
        (d.typePrefix.toList ++ (d.name.toList ++ ((" =".toList ++ ([' '] ++ (TypeExpr.opening true ++
          ['\n']))) ++ (d.fields.flatMap (fun b => Template.propertyLine (b.optional || b.hasDefault) b) ++
            (d.associations.flatMap (fun b => Template.propertyLine b.optional b) ++
              (TypeExpr.closing true ++ ([';'] ++ ['\n'])))))))))) := rfl
  have hname : (Document.model d).typeName.toList = d.typePrefix.toList ++ d.name.toList :=
    String.toList_append
  rw [htext, hname, ModelDocument.bindings, List.flatMap_append, List.flatMap_map, List.flatMap_map]
  simp only [List.append_assoc, List.nil_append, List.cons_append]

theorem items_modelText {d : ModelDocument} (h : (Document.model d).Bare) :
    Items (Template.modelText d) (Document.model d).file.items := by
  obtain ⟨hname, haliases, hbindings⟩ := h
  have hbare : ∀ b ∈ d.bindings, b.2.value.Bare := fun b hb =>
    hbindings b.2 (ModelDocument.mem_of_mem_bindings hb)
  have hitems := items_header (items_aliases haliases (items_newline
    (items_declare hname (type_object hbare) sign_self (.none gap_nil))))
  -- fields and associations differ only in what marks them
  have hproperties : d.bindings.map (fun b => b.2.property b.1) = d.properties := by
    simp [ModelDocument.bindings, ModelDocument.properties, Function.comp_def]
  rw [hproperties] at hitems
  rw [modelText_eq]
  simpa [Document.file, Document.declarations, SourceFile.items, Declaration.items,
    Declaration.declare] using hitems

theorem type_enum {d : EnumDocument} : ∃ u, TypeText u d.type ∧
    '\n' :: (d.values.flatMap Template.valueLine ++
      (if d.values.isEmpty then "  empty\n".toList else [])) = u ++ ['\n'] := by
  obtain ⟨name, typePrefix, values⟩ := d
  -- none, one and several values have types of different kinds
  match values with
  | [] =>
    have hempty : Primary "empty".toList (.named "empty") := primary_named (.identifier (by decide))
    exact ⟨_, type_single gap_line (member_of_primary hempty), rfl⟩
  | [value] =>
    obtain ⟨u, hu, htext⟩ := type_values value []
    exact ⟨u, hu, by simpa using htext⟩
  | first :: second :: others =>
    obtain ⟨u, hu, htext⟩ := type_values first (second :: others)
    have hliterals : ∀ t ∈ (first :: second :: others).map TypeExpr.literal, t.isUnion = false := by
      intro t ht
      obtain ⟨value, -, rfl⟩ := List.mem_map.1 ht
      rfl
    have hunion : TypeText u (.union ((first :: second :: others).map .literal)) := by
      rw [← TypeExpr.flatMap_members hliterals]
      exact hu
    exact ⟨u, hunion, by simpa using htext⟩

theorem items_enumText {d : EnumDocument} (h : (Document.enum d).Bare) :
    Items (Template.enumText d) (Document.enum d).file.items := by
  obtain ⟨u, hu, hlines⟩ := @type_enum d
  have hsemi : Sign ';' ['\n', ';'] := ⟨['\n'], gap_newline gap_nil, rfl⟩
  have hitems := items_header (items_declare h.1 hu hsemi (.none gap_nil))
  have htext : Template.enumText d = "// @flow\n\n".toList ++ ("declare type ".toList ++
      ((Document.enum d).typeName.toList ++ (" =".toList ++ (u ++ (['\n', ';'] ++ ['\n']))))) := by
    have hname : (Document.enum d).typeName.toList = d.typePrefix.toList ++ d.name.toList :=
      String.toList_append
    have henum : Template.enumText d = "// @flow\n\n".toList ++ ("declare type ".toList ++
        (d.typePrefix.toList ++ (d.name.toList ++ (" =".toList ++ (['\n'] ++
          (d.values.flatMap Template.valueLine ++
            ((if d.values.isEmpty then "  empty\n".toList else []) ++ [';', '\n']))))))) := rfl
    -- the line feed after the last value is the gap of the semicolon
    have hbody : u ++ (['\n', ';'] ++ ['\n']) = (u ++ ['\n']) ++ [';', '\n'] := by
      rw [List.append_assoc]
      rfl
    rw [henum, hname, hbody, ← hlines]
    simp only [List.append_assoc, List.cons_append, List.nil_append]
  rw [htext]
  exact hitems

theorem items_render {d : Document} (h : d.Bare) : ∃ raw,
    (Template.builtin d.kind).renderDocument d = .ok raw ∧ Items raw d.file.items := by
  cases d with
  | model d => exact ⟨_, Template.render_model, items_modelText h⟩
  | enum d => exact ⟨_, Template.render_enum, items_enumText h⟩

theorem grouped_file {d : Document} : d.file.Grouped := by
  cases d with
  | model d =>
    obtain ⟨name, typePrefix, aliases, fields, associations⟩ := d
    cases aliases <;> rfl
  | enum d => rfl

/-- Every document whose bare names are identifiers is rendered with the built-in template and
formatted under every style, and its file is read as what the document denotes. -/
theorem render_denotes (config : Config) (style : Style) {d : Document} (h : d.Bare) : ∃ file,
    (Generator.mk config Template.builtin (Formatter.ofStyle style)).render d = .ok file ∧
      SourceFile.parse file.contents.toList = .ok d.file := by
  obtain ⟨raw, hraw, hitems⟩ := items_render h
  have hparse : SourceFile.parse (String.ofList raw).toList = .ok d.file := by
    rw [String.toList_ofList]
    exact SourceFile.parse_complete hitems grouped_file
  have hformat : Formatter.ofStyle style (String.ofList raw) =
      .ok (String.ofList (d.file.print style)) := by
    rw [Formatter.ofStyle, canonicalize_of_parse hparse style]
    rfl
  -- reading gives back what was printed, and this was read from the raw text
  refine ⟨⟨d.kind, d.typeName ++ "." ++ config.fileExtension, String.ofList (d.file.print style)⟩,
    ?_, ?_⟩
  · rw [Generator.render, hraw]
    show (Formatter.ofStyle style (String.ofList raw)).mapError DocumentFailure.format >>= _ = _
    rw [hformat]
    rfl
  · rw [String.toList_ofList]
    exact SourceFile.parse_print style hparse

/-- Keys that a careless template would let out of their literals. -/
def sampleDocument : Document :=
  .model ⟨"User", "$", [⟨"$UserId", .number⟩],
    [{ key := "id", value := .named "$UserId", hasDefault := true },
      { key := "a'b\"\\\n|\x7d", value := .scalar .string }],
    [{ key := "größe", value := .listOf "$Post", optional := true }]⟩

theorem render_denotes_sample : sampleDocument.Bare ∧ ∃ file,
    (Generator.mk {} Template.builtin (Formatter.ofStyle { singleQuote := true })).render
      sampleDocument = .ok file ∧
      SourceFile.parse file.contents.toList = .ok sampleDocument.file := by
  have hbare : sampleDocument.Bare := by
    refine ⟨by decide, ?_, ?_⟩
    · rintro a (_ | ⟨_, ⟨⟩⟩)
      decide
    · rintro b (_ | ⟨_, _ | ⟨_, _ | ⟨_, ⟨⟩⟩⟩⟩)
      · show isIdentifier "$UserId".toList
        decide
      · exact trivial
      · show isIdentifier "$Post".toList
        decide
  exact ⟨hbare, render_denotes {} { singleQuote := true } hbare⟩

end ModelTypes
