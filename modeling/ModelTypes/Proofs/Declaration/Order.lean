import ModelTypes.Proofs.Declaration.RoundTrip

/-!
# Canonical text keeps the items

A text spells one sequence of items at most. The canonical form of a text that is accepted spells
the sequence of the text: every comment and every declaration, once and in the same order. A file
holds the sequence in three places, the header, the declarations with their comments and the rest,
and nothing gets lost between them.
-/

namespace ModelTypes

open Grammar (Items)

namespace Grammar

theorem Items.unique (h : Items s is) (h' : Items s is') : is = is' :=
  Except.ok.inj ((Parser.items_complete h).symm.trans (Parser.items_complete h'))

theorem items_iff (h : SourceFile.parse s = .ok file) : Items s is ↔ is = file.items := by
  have hitems : Items s file.items := (SourceFile.parse_sound h).1
  constructor
  · exact fun h' => h'.unique hitems
  · rintro rfl
    exact hitems

end Grammar

/-- A text that is accepted and its canonical form spell the same items, which are those of the file
in the order of its places; and the grouping of any items into a file can be undone. -/
theorem canonicalize_items {source : String} {file : SourceFile}
    (h : SourceFile.parse source.toList = .ok file) (style : Style) :
    (∃ canonical, canonicalize style source = .ok canonical ∧
      ∀ is, (Items source.toList is ↔ is = file.items) ∧
        (Items canonical.toList is ↔ is = file.items)) ∧
    ∀ is : List Item, (SourceFile.ofItems is).items = is := by
  refine ⟨⟨_, canonicalize_of_parse h style, fun is => ⟨Grammar.items_iff h, ?_⟩⟩,
    fun is => SourceFile.items_ofItems⟩
  rw [String.toList_ofList]
  exact Grammar.items_iff (SourceFile.parse_print style h)

def commentedFile : SourceFile :=
  ⟨[.block " a ", .line " b"],
    [⟨[], ⟨false, false⟩, "A", .named "B"⟩, ⟨[.block " c\n"], ⟨true, false⟩, "C", .literal "//"⟩],
    [.line " d", .block ""]⟩

theorem parse_commentedFile :
    SourceFile.parse "/* a */// b \ntype A=B/* c\n*/declare type C='//';// d\t\n/**/".toList =
      .ok commentedFile := by
  with_unfolding_all rfl

theorem canonicalize_items_commented :
    SourceFile.parse "/* a */// b \ntype A=B/* c\n*/declare type C='//';// d\t\n/**/".toList =
        .ok commentedFile ∧
      ∃ canonical,
        canonicalize {} "/* a */// b \ntype A=B/* c\n*/declare type C='//';// d\t\n/**/" =
          .ok canonical ∧
        Items canonical.toList [.comment (.block " a "), .comment (.line " b"),
          .declaration ⟨false, false⟩ "A" (.named "B"), .comment (.block " c\n"),
          .declaration ⟨true, false⟩ "C" (.literal "//"), .comment (.line " d"),
          .comment (.block "")] := by
  obtain ⟨canonical, hcanonical, hitems⟩ := (canonicalize_items parse_commentedFile {}).1
  exact ⟨parse_commentedFile, canonical, hcanonical, (hitems _).2.2 rfl⟩

end ModelTypes
