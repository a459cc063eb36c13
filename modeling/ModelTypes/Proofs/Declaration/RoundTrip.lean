import ModelTypes.Declaration.Canonical
import ModelTypes.Proofs.Declaration.Printing
import ModelTypes.Proofs.Text.Blank

/-!
# The canonical form is stable

What was read from a text can be printed, is already normal, and so is read back unchanged from its
printed form under every style.
-/

namespace ModelTypes

open Grammar

/-! ## What the grammar spells is normal -/

namespace Item

def Normal (i : Item) : Prop :=
  i.Printable ∧ i.normalize = i

theorem normal_line (h : '\n' ∉ u) : Normal (.comment (.line (String.ofList (Text.trimEnd u)))) := by
  refine ⟨?_, ?_⟩
  · rw [Printable, Comment.Printable, String.toList_ofList]
    exact fun hmem => h (Text.mem_of_mem_trimEnd hmem)
  · rw [normalize, Comment.normalize, String.toList_ofList, Text.trimEnd_trimEnd]

theorem normal_block (h : ¬ ['*', '/'] <:+: u) : Normal (.comment (.block (String.ofList u))) := by
  refine ⟨?_, rfl⟩
  rwa [Printable, Comment.Printable, String.toList_ofList]

theorem normal_declaration (h : DeclarationText u m name t) :
    Normal (.declaration m (String.ofList name) t) := by
  cases h with
  | declaration _ _ _ _ hname _ ht _ =>
    have hnormal := normal_type ht
    refine ⟨⟨?_, hnormal.printable⟩, ?_⟩
    · rwa [String.toList_ofList]
    · rw [normalize, hnormal.normalize_eq]

end Item

theorem normal_items (h : Items s is) : ∀ i ∈ is, i.Normal := by
  induction h with
  | none _ => exact List.forall_mem_nil _
  | line _ hu _ _ ih => exact List.forall_mem_cons.2 ⟨Item.normal_line hu, ih⟩
  | block _ hu _ ih => exact List.forall_mem_cons.2 ⟨Item.normal_block hu, ih⟩
  | declaration _ hu _ _ ih => exact List.forall_mem_cons.2 ⟨Item.normal_declaration hu, ih⟩

/-! ## Reading and printing -/

theorem SourceFile.parse_print (style : Style) (h : parse s = .ok file) :
    parse (file.print style) = .ok file := by
  -- from the text to the grammar, to the printed text and back
  obtain ⟨hitems, hgrouped⟩ := parse_sound h
  have hnormal := normal_items hitems
  have hprint := items_print style fun i hi => (hnormal i hi).1
  rw [List.map_congr_left (g := id) fun i hi => (hnormal i hi).2, List.map_id] at hprint
  exact parse_complete hprint hgrouped

theorem canonicalize_of_parse {source : String} {file : SourceFile}
    (h : SourceFile.parse source.toList = .ok file) (style : Style) :
    canonicalize style source = .ok (String.ofList (file.print style)) := by
  rw [canonicalize, h]

/-- A text that is accepted has a canonical form under every style. Reading it gives the same file,
so its own canonical forms are those of the text. -/
theorem canonicalize_canonicalize {source : String} {file : SourceFile}
    (h : SourceFile.parse source.toList = .ok file) (style other : Style) :
    SourceFile.parse (file.print style) = .ok file ∧
      ∃ canonical, canonicalize style source = .ok canonical ∧
        canonicalize other canonical = canonicalize other source ∧
        canonicalize style canonical = .ok canonical := by
  have hprint := SourceFile.parse_print style h
  have hcanonical : SourceFile.parse (String.ofList (file.print style)).toList = .ok file := by
    rwa [String.toList_ofList]
  -- both styles see the same file, whichever text it was read from
  refine ⟨hprint, _, canonicalize_of_parse h style, ?_, canonicalize_of_parse hcanonical style⟩
  rw [canonicalize_of_parse hcanonical, canonicalize_of_parse h]

def sampleFile : SourceFile :=
  ⟨[.line " @flow"], [⟨[], ⟨false, true⟩, "A", .maybe (.array (.union [.named "B", .literal "c"]))⟩],
    []⟩

theorem parse_sample :
    SourceFile.parse "// @flow \nexport type A=?(|B|'c')[]".toList = .ok sampleFile := by
  with_unfolding_all rfl

theorem canonicalize_canonicalize_sample :
    SourceFile.parse "// @flow \nexport type A=?(|B|'c')[]".toList = .ok sampleFile ∧
      SourceFile.parse (sampleFile.print {}) = .ok sampleFile ∧
      ∃ canonical, canonicalize {} "// @flow \nexport type A=?(|B|'c')[]" = .ok canonical ∧
        canonicalize { useTabs := true, semi := false } canonical =
          canonicalize { useTabs := true, semi := false } "// @flow \nexport type A=?(|B|'c')[]" ∧
        canonicalize {} canonical = .ok canonical :=
  ⟨parse_sample, canonicalize_canonicalize parse_sample {} { useTabs := true, semi := false }⟩

end ModelTypes
