import ModelTypes.Proofs.Declaration.Braces
import ModelTypes.Proofs.Declaration.NormalFiles
import ModelTypes.Proofs.Document.Denotation
import ModelTypes.Proofs.Introspection.Declared

/-!
# What is read from the text of a document

Names stand bare in the texts of the built-in templates, whatever characters they have. If a text is
accepted and the names that its document declares are identifiers, these are the names that are read.
The type of a model may be read as another one, but not as more than one: it goes on to a closing
brace, and its own is the first if there is none in the names that it refers to.
-/

namespace ModelTypes

open Grammar
open Text (isIdentifier isIdentStart skipGap)

variable {d : Document} {raw s r : List Char} {file : SourceFile} {is : List Item}

/-! ## Names -/

def Document.names (d : Document) : List String :=
  d.declarations.map (·.name)

def SourceFile.names (file : SourceFile) : List String :=
  file.declarations.map (·.name)

def Item.name? : Item → Option String
  | comment _ => none
  | declaration _ name _ => some name

theorem Declaration.names_items {ds : List Declaration} :
    (ds.flatMap Declaration.items).filterMap Item.name? = ds.map (·.name) := by
  induction ds with
  | nil => rfl
  | cons d ds ih => simp [Declaration.items, Item.name?, ih, Function.comp_def]

theorem SourceFile.names_eq : file.names = file.items.filterMap Item.name? := by
  simp [names, items, Declaration.names_items, Item.name?, Function.comp_def]

/-- The names of other types in the text of a document. -/
def Document.references : Document → List String
  | model d => (d.fields ++ d.associations).filterMap (·.value.name?)
  | enum _ => []

/-- No name that a document refers to brings a closing brace into its text. -/
def Document.Contained (d : Document) : Prop :=
  ∀ name ∈ d.references, '}' ∉ name.toList

instance : DecidablePred Document.Contained := fun d =>
  inferInstanceAs (Decidable (∀ name ∈ d.references, '}' ∉ name.toList))

@[simp]
theorem Document.names_model {d : ModelDocument} :
    (Document.model d).names = d.aliases.map (·.name) ++ [(Document.model d).typeName] := by
  simp [names, declarations, Alias.declaration, Declaration.declare, Function.comp_def]

@[simp]
theorem Document.names_enum {d : EnumDocument} :
    (Document.enum d).names = [(Document.enum d).typeName] :=
  rfl

theorem isIdentifier_of_parse (h : SourceFile.parse s = .ok file) :
    ∀ name ∈ file.names, isIdentifier name.toList := by
  intro name hname
  obtain ⟨d, hd, rfl⟩ := List.mem_map.1 hname
  exact ((SourceFile.normal_of_parse h).declarations d hd).1

/-! ## The type of a model -/

theorem not_mem_text {value : TypeRef} (h : ∀ name, value.name? = some name → '}' ∉ name.toList) :
    '}' ∉ value.text.toList := by
  cases value with
  | scalar kind => cases kind <;> decide
  | named name => exact h name rfl
  | listOf name =>
    rw [TypeRef.text, String.toList_append, List.mem_append, not_or]
    exact ⟨h name rfl, by decide⟩

theorem closes_lines {bs : List (Bool × Binding)}
    (h : ∀ b ∈ bs, '}' ∉ b.2.value.text.toList)
    (hs : Closes (bs.flatMap (fun b => Template.propertyLine b.1 b.2) ++ s) r) : Closes s r := by
  induction bs with
  | nil => exact hs
  | cons b bs ih =>
    obtain ⟨hb, hbs⟩ := List.forall_mem_cons.1 h
    rw [List.flatMap_cons, List.append_assoc, propertyLine_eq] at hs
    have hgap : Outside (· ≠ '}') [' ', ' '] :=
      outside_of_forall (by simp [Literal.isQuote])
    have hmark : Outside (· ≠ '}') ((if b.1 then ['?'] else []) ++ [':'] ++ [' ']) := by
      refine outside_of_forall ?_
      cases b.1 <;> simp [Literal.isQuote]
    have hkey : Outside (· ≠ '}') (Json.encode b.2.key.toList) :=
      outside_literal Json.literalText_encode
    have hfront := (hgap.append hkey).append hmark
    refine ih hbs (closes_line hb (closes_outside hfront ?_))
    simpa only [List.append_assoc, List.cons_append, List.nil_append] using hs

theorem closes_end (h : Closes (TypeExpr.closing true ++ s) r) : r = s := by
  rcases closes_cons h rfl with ⟨hbar, -⟩ | ⟨-, h⟩
  · cases hbar
  · rcases closes_cons h rfl with ⟨-, rfl⟩ | ⟨hbrace, -⟩
    · rfl
    · exact absurd rfl hbrace

/-! ## Items in turn -/

theorem items_header_ok (h : Parser.items ("// @flow\n\n".toList ++ s) = .ok is) : ∃ others,
    Parser.items ('\n' :: '\n' :: s) = .ok others ∧ is = .comment (.line " @flow") :: others := by
  have htrim : String.ofList (Text.trimEnd " @flow".toList) = " @flow" := by decide +kernel
  let text : List Char := '/' :: '/' :: " @flow".toList ++ '\n' :: '\n' :: s
  have hcomment : (Parser.comment? text).map Parsed.pair = some (.line " @flow", '\n' :: '\n' :: s) := by
    rw [← htrim]
    exact Parser.comment?_iff.2 (.inl ⟨" @flow".toList, by decide, rfl, rfl, rfl⟩)
  have hstart : NoGap text := rfl
  have hitems : Parser.items ([] ++ text) = .ok is := h
  exact Parser.items_cons_ok gap_nil hstart (Parser.item_ok.2 (.inl ⟨_, hcomment, rfl⟩)) hitems

theorem items_aliases_ok {as : List Alias} (ha : ∀ a ∈ as, isIdentifier a.name.toList)
    (hs : (skipGap s).head?.all Parser.isItemStart) (hg : Gap g)
    (h : Parser.items (g ++ (as.flatMap Template.aliasLine ++ s)) = .ok is) :
    ∃ g' others, Gap g' ∧ Parser.items (g' ++ s) = .ok others ∧
      is = (as.map Alias.declaration).flatMap Declaration.items ++ others := by
  -- the line feed at the end of each alias is in the gap of the next item
  induction as generalizing g is with
  | nil => exact ⟨g, is, hg, h, rfl⟩
  | cons a as ih =>
    obtain ⟨hfirst, hothers⟩ := List.forall_mem_cons.1 ha
    obtain ⟨u, hu, hline⟩ := declarationText_alias hfirst
    have hnext : (skipGap ('\n' :: (as.flatMap Template.aliasLine ++ s))).head?.all
        Parser.isItemStart := by
      cases as with
      | nil => exact hs
      | cons b bs => rfl
    have hitem := Parser.item_declaration hu (Parser.declarationEnd_of_head hnext) (WordEnd.apart rfl)
    rw [String.ofList_toList] at hitem
    rw [List.flatMap_cons, hline, List.append_assoc, List.append_assoc] at h
    obtain ⟨rest, hrest, rfl⟩ := Parser.items_cons_ok hg (Parser.noGap_declaration hu) hitem h
    obtain ⟨g', others, hg', hread, rfl⟩ := ih hothers (gap_newline gap_nil) hrest
    exact ⟨g', others, hg', hread, rfl⟩

theorem declaration_declare_ok {name : String} (hname : isIdentifier name.toList)
    (h : (Parser.declaration ("declare type ".toList ++ (name.toList ++ (" =".toList ++ s)))).map
      Parsed.pair = .ok (i, r)) : ∃ u t v, TypeText u t ∧ s = u ++ (v ++ r) ∧
        i = .declaration ⟨true, false⟩ name t := by
  obtain ⟨m, s₁, s₂, name', s₃, s₄, t, s₅, terminated, hmodifier, hkeyword, hname', hequals, htype,
    hsemi, rfl⟩ := Parser.declaration_ok.1 h
  -- what comes before the type is read as it was written
  let after : List Char := ' ' :: (name.toList ++ (" =".toList ++ s))
  have hkeywords : (Parser.modifier ("declare ".toList ++ [] ++ ("type".toList ++ after))).pair =
      (⟨true, false⟩, "type".toList ++ after) :=
    Parser.modifier_complete ⟨[' '], gap_space, List.cons_ne_nil _ _, rfl⟩ rfl
  have htypeword : (Parser.keyword .type ("type".toList ++ after)).map Parsed.pair = .ok ((), after) :=
    Parser.keyword_iff.2 ⟨rfl, rfl⟩
  have hstart : NoGap (name.toList ++ (" =".toList ++ s)) :=
    (Parser.starts_identifier hname).append.noGap isIdentStart_of_isGap
  have hgap : skipGap after = name.toList ++ (" =".toList ++ s) := skipGap_append_eq gap_space hstart
  have hident : (Parser.identifier? (skipGap after)).map Parsed.pair =
      some (name.toList, " =".toList ++ s) := by
    rw [hgap]
    exact Parser.identifier?_iff.2 ⟨hname, rfl, rfl⟩
  have hsign : (Parser.sign? '=' (" =".toList ++ s)).map Parsed.pair = some ((), s) :=
    Parser.sign?_complete ⟨[' '], gap_space, rfl⟩ rfl
  obtain ⟨rfl, rfl⟩ := Prod.mk.inj (hmodifier.symm.trans hkeywords)
  obtain ⟨-, rfl⟩ := Prod.mk.inj (Except.ok.inj (hkeyword.symm.trans htypeword))
  cases hname'.symm.trans hident
  cases hequals.symm.trans hsign
  obtain ⟨u, hu, -, rfl⟩ := Parser.typeAt_sound htype
  obtain ⟨v, -, rfl⟩ := Parser.optionalSign_sound hsemi
  exact ⟨u, t, v, hu, rfl, by rw [String.ofList_toList]⟩

theorem items_declare_ok {name : String} (hname : isIdentifier name.toList) (hg : Gap g)
    (h : Parser.items (g ++ ("declare type ".toList ++ (name.toList ++ (" =".toList ++ s)))) =
      .ok is) : ∃ u t v r others, TypeText u t ∧ s = u ++ (v ++ r) ∧ Parser.items r = .ok others ∧
        is = .declaration ⟨true, false⟩ name t :: others := by
  let text : List Char := "eclare type ".toList ++ (name.toList ++ (" =".toList ++ s))
  have hstart : NoGap ('d' :: text) := rfl
  obtain ⟨i, r, others, hitem, hothers, rfl⟩ := Parser.items_ok hg hstart h
  rcases Parser.item_ok.1 hitem with ⟨c, hcomment, -⟩ | ⟨-, hdeclaration⟩
  · rw [Parser.comment?_eq_none (by simp)] at hcomment
    cases hcomment
  · obtain ⟨u, t, v, hu, hs, rfl⟩ := declaration_declare_ok hname hdeclaration
    exact ⟨u, t, v, r, others, hu, hs, hothers, rfl⟩

theorem items_end (hr : v ++ r = [';', '\n']) (h : Parser.items r = .ok is) : is = [] := by
  have hsuffix : r <:+ [';', '\n'] := ⟨v, hr⟩
  have hgap : Gap r → is = [] := fun hg => Except.ok.inj (h.symm.trans (Parser.items_complete (.none hg)))
  rcases List.suffix_cons_iff.1 hsuffix with rfl | hsuffix
  · cases Parser.head?_items (Parser.items_sound h)
  · rcases List.suffix_cons_iff.1 hsuffix with rfl | hsuffix
    · exact hgap (gap_newline gap_nil)
    · rw [List.suffix_nil.1 hsuffix] at hgap
      exact hgap gap_nil

/-! ## Documents -/

theorem items_modelText_ok {d : ModelDocument}
    (hnames : ∀ name ∈ (Document.model d).names, isIdentifier name.toList)
    (hcontained : (Document.model d).Contained)
    (h : Parser.items (Template.modelText d) = .ok is) : ∃ t,
      is = .comment (.line " @flow") :: ((d.aliases.map Alias.declaration).flatMap Declaration.items ++
        [.declaration ⟨true, false⟩ (Document.model d).typeName t]) := by
  simp only [Document.names_model, List.forall_mem_append, List.forall_mem_map,
    List.forall_mem_singleton] at hnames
  have hvalues : ∀ b ∈ d.bindings, '}' ∉ b.2.value.text.toList := by
    intro b hb
    refine not_mem_text fun name hname => hcontained name ?_
    exact List.mem_filterMap.2 ⟨b.2, ModelDocument.mem_of_mem_bindings hb, hname⟩
  rw [modelText_eq] at h
  obtain ⟨rest, hrest, rfl⟩ := items_header_ok h
  have hgap : Gap ['\n', '\n'] := gap_newline (gap_newline gap_nil)
  obtain ⟨g, others, hg, hothers, rfl⟩ := items_aliases_ok hnames.1 rfl hgap hrest
  rw [List.append_cons] at hothers
  obtain ⟨u, t, v, r, last, hu, htext, hlast, rfl⟩ :=
    items_declare_ok hnames.2 (hg.append (gap_newline gap_nil)) hothers
  -- the type does not end before the brace on the last line
  obtain ⟨r', hcloses⟩ := closes_type hu (r := v ++ r) (by rw [← htext]; rfl)
  have hclosed : Closes _ (r' ++ (v ++ r)) := hcloses.append
  have hfront : Outside (· ≠ '}') [' ', '{', '|', '\n'] :=
    outside_of_forall (by simp [Literal.isQuote])
  have hlines : Closes ([' ', '{', '|', '\n'] ++ (d.bindings.flatMap (fun b =>
      Template.propertyLine b.1 b.2) ++ (TypeExpr.closing true ++ [';', '\n']))) (r' ++ (v ++ r)) := by
    rw [← htext] at hclosed
    simpa [TypeExpr.opening] using hclosed
  have hend := closes_end (closes_lines hvalues (closes_outside hfront hlines))
  rw [← List.append_assoc] at hend
  obtain rfl := items_end hend hlast
  exact ⟨t, rfl⟩

/-- If no other name brings a closing brace into it, a text that is accepted is read under the names
of its document if and only if these are identifiers. -/
theorem names_of_parse (hraw : (Template.builtin d.kind).renderDocument d = .ok raw)
    (hcontained : d.Contained) (h : SourceFile.parse raw = .ok file) :
    file.names = d.names ↔ ∀ name ∈ d.names, isIdentifier name.toList := by
  constructor
  · intro hsame
    rw [← hsame]
    exact isIdentifier_of_parse h
  · intro hnames
    cases d with
    | model d =>
      cases Template.render_model.symm.trans hraw
      unfold SourceFile.parse at h
      split at h
      · next is his =>
        cases h
        obtain ⟨t, rfl⟩ := items_modelText_ok hnames hcontained his
        rw [SourceFile.names_eq, SourceFile.items_ofItems, Document.names_model]
        simp [List.filterMap_cons, Declaration.names_items, Item.name?, Alias.declaration,
          Declaration.declare]
      · cases h
    | enum d =>
      cases Template.render_enum.symm.trans hraw
      -- an enumeration refers to no other name, so the text is one that is printed from bare names
      have hbare : (Document.enum d).Bare := ⟨by simpa using hnames, trivial⟩
      cases h.symm.trans (SourceFile.parse_complete (items_enumText hbare) grouped_file)
      rfl

end ModelTypes
