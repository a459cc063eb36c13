import Mathlib.Data.List.TakeWhile
import ModelTypes.Proofs.Declaration.Traces

/-!
# Rejected files

A file is judged in two turns. The items are read as far as they go; where one was refused, its
trace is lost, and the declaration there is read again for it. Either way a rejected text comes with
a trace. What is reported is a place in the text that no item before the failure reaches beyond.
-/

namespace ModelTypes

open ModelTypes.Parser (untilBlockEnd)
open Text (isBlank isGap skipGap)

/-! ## Verdicts -/

inductive Verdict where
  | accepted
  | located (place : List Char) (message : String)
  /-- Rejected with an empty trace. -/
  | traceless
  /-- Rejected at an item that was read in the second turn. -/
  | reread
  | incomplete

def foundText (place : List Char) : String :=
  match Text.firstWord? place with
  | some word => "found `" ++ String.ofList (word.take foundWidth) ++ "`"
  | none => "found end of input"

def Trace.verdict (t : Trace) : Verdict :=
  match t.report? with
  | some (place, text) => .located place (text ++ ", " ++ foundText place)
  | none => .traceless

theorem Trace.Reports.verdict {t : Trace} {e : SyntaxError} (h : t.Reports e) :
    t.verdict = .located e.rest (e.cause.message ++ ", " ++ foundText e.rest) := by
  rw [Reports] at h
  rw [Trace.verdict, h]

/-- The verdict of a failure; anything else has a verdict of its own. -/
def Outcome.verdict (otherwise : Verdict) : Outcome → Verdict
  | refused t | committed t => t.verdict
  | read _ | incomplete => otherwise

/-- The verdict on a text, in two turns. -/
inductive Judged (source : List Char) : Verdict → Prop
  | accepted : Runs .file source (.read []) → Judged source .accepted
  | again : Runs .file source (.read r) → r ≠ [] →
      Runs (.seq .gaps .declaration) r o → Judged source (o.verdict .reread)
  | stopped : o.isRead = false → Runs .file source o → Judged source (o.verdict .incomplete)

theorem Judged.unique {source : List Char} {v v' : Verdict} (h : Judged source v)
    (h' : Judged source v') : v = v' := by
  -- the three verdicts differ in what the grammar of files does, which is one thing
  cases h with
  | accepted hfile =>
    cases h' with
    | accepted _ => rfl
    | again hfile' hne _ =>
      cases hfile.unique hfile'
      exact absurd rfl hne
    | stopped hstop hfile' =>
      cases hfile.unique hfile'
      cases hstop
  | again hfile hne hagain =>
    cases h' with
    | accepted hfile' =>
      cases hfile.unique hfile'
      exact absurd rfl hne
    | again hfile' _ hagain' =>
      cases hfile.unique hfile'
      rw [hagain.unique hagain']
    | stopped hstop hfile' =>
      cases hfile.unique hfile'
      cases hstop
  | stopped hstop hfile =>
    cases h' with
    | accepted hfile' | again hfile' _ _ =>
      cases hfile.unique hfile'
      cases hstop
    | stopped _ hfile' => rw [hfile.unique hfile']

/-! ## Items -/

/-- The items that are read one after the other from the front of a text, and the text after
them. -/
inductive ItemsTo : List Char → List Item → List Char → Prop
  | none : ItemsTo s [] s
  | more : (Parser.item (skipGap s)).map Parsed.pair = .ok (i, r) → ItemsTo r is r' →
      ItemsTo s (i :: is) r'

namespace Recognizer

variable {s r : List Char} {t : Trace} {e : SyntaxError}

theorem report?_alternatives (h : t.report? = some x) :
    Trace.report? (t ++ [(s, .kind .alternatives)]) = some x := by
  cases t with
  | nil => cases h
  | cons p more =>
    have hnamed : Trace.expectation? (p :: more ++ [(s, .kind .alternatives)]) =
        Trace.expectation? (p :: more) := by
      rw [Trace.expectation?, List.findSome?_append]
      exact Option.or_none
    rw [List.cons_append] at hnamed
    rw [← h, List.cons_append, Trace.report?, Trace.report?, hnamed]

theorem stops_item (s : List Char) : item.Stops s Trace.Reports (Parser.item s) := by
  obtain ⟨t, hcomment⟩ := takes_comment s
  rw [Parser.item]
  generalize Parser.comment? s = result at hcomment ⊢
  rcases result with _ | p
  · have hdeclaration := stops_declaration s
    dsimp only
    generalize Parser.declaration s = result at hdeclaration ⊢
    rcases result with e | p
    · obtain ⟨t', ht', hx | hx⟩ := hdeclaration
      · exact ⟨_, report?_alternatives ht', .inl (.oneOf (.orElse hcomment hx))⟩
      · exact ⟨_, ht', .inr (.oneOf (.orElse hcomment hx))⟩
    · exact Runs.oneOf (.orElse hcomment hdeclaration)
  · exact Runs.oneOf (.orElse_first rfl hcomment)

theorem runs_item_nil : ∃ t, Runs item [] (.refused t) := by
  obtain ⟨t, hcomment⟩ := takes_comment []
  have hmodifier := runs_modifier []
  rw [List.suffix_nil.1 hmodifier.within] at hmodifier
  exact ⟨_, .oneOf (.orElse hcomment (.seq hmodifier (.seq_first rfl (.seq_first rfl (.tag_refused rfl)))))⟩

theorem item_error (h : Parser.item s = .error e) :
    Parser.comment? s = none ∧ Parser.declaration s = .error e := by
  rw [Parser.item] at h
  split at h
  · cases h
  · next hnone => exact ⟨hnone, h⟩

theorem runs_item (h : (Parser.item s).map Parsed.pair = .ok (i, r)) : Runs item s (.read r) := by
  have hitem := stops_item s
  obtain ⟨_, hi⟩ := Parsed.map_pair_ok.1 h
  rw [hi] at hitem
  exact hitem

theorem runs_gap_item (hskip : skipGap s = s')
    (h : (Parser.item s').map Parsed.pair = .ok (i, r)) : Runs (.seq gaps item) s (.read r) := by
  subst hskip
  exact .seq runs_gaps (runs_item h)

/-- The first turn reads every item, or it stops in front of one that is refused or within one that
is committed. -/
theorem runs_items (s : List Char) : match Parser.items s with
    | .ok _ => ∃ r, Runs items s (.read r) ∧ skipGap r = []
    | .error e => ∃ t, t.Reports e ∧
        ((∃ r, Runs items s (.read r) ∧ skipGap r ≠ [] ∧ Runs declaration (skipGap r) (.refused t)) ∨
          Runs items s (.committed t)) := by
  fun_induction Parser.items s with
  | case1 s hskip =>
    obtain ⟨t, hitem⟩ := runs_item_nil
    rw [← hskip] at hitem
    exact ⟨s, .many_last rfl (.seq runs_gaps hitem), hskip⟩
  | case2 s c cs hskip e hitem =>
    obtain ⟨hnone, he⟩ := item_error hitem
    obtain ⟨t', hcomment⟩ := takes_comment (c :: cs)
    have hdeclaration := stops_declaration (c :: cs)
    rw [hnone] at hcomment
    rw [he] at hdeclaration
    rw [← hskip] at hcomment hdeclaration
    obtain ⟨t, ht, hx | hx⟩ := hdeclaration
    · -- the loop ends in front of a declaration that is refused, but fails on a committed one
      refine ⟨t, ht, .inl ⟨s, ?_, by simp [hskip], hx⟩⟩
      exact .many_last rfl (.seq runs_gaps (.oneOf (.orElse hcomment hx)))
    · exact ⟨t, ht, .inr (.many_last rfl (.seq runs_gaps (.oneOf (.orElse hcomment hx))))⟩
  | case3 s c cs hskip first rest hlt hitem hrest e he ih =>
    have hfirst := runs_gap_item hskip (Parsed.map_pair_ok.2 ⟨hlt, hitem⟩)
    rw [he] at ih
    obtain ⟨t, ht, ⟨r, hr, hne, hx⟩ | hx⟩ := ih
    · exact ⟨t, ht, .inl ⟨r, .many hfirst (Nat.ne_of_lt hrest) hr, hne, hx⟩⟩
    · exact ⟨t, ht, .inr (.many hfirst (Nat.ne_of_lt hrest) hx)⟩
  | case4 s c cs hskip first rest hlt hitem hrest others he ih =>
    have hfirst := runs_gap_item hskip (Parsed.map_pair_ok.2 ⟨hlt, hitem⟩)
    rw [he] at ih
    obtain ⟨r, hr, hend⟩ := ih
    exact ⟨r, .many hfirst (Nat.ne_of_lt hrest) hr, hend⟩

theorem judged_items (s : List Char) : match Parser.items s with
    | .ok _ => Judged s .accepted
    | .error e => Judged s (.located e.rest (e.cause.message ++ ", " ++ foundText e.rest)) := by
  have hitems := runs_items s
  generalize Parser.items s = result at hitems ⊢
  rcases result with e | is
  · obtain ⟨t, ht, ⟨r, hr, hne, hx⟩ | hx⟩ := hitems
    · -- the first turn lost the trace, and the second one leaves it again
      have hskip : skipGap (skipGap r) = skipGap r := Grammar.noGap_skipGap.skipGap_eq
      rw [← hskip] at hx
      have hagain := Judged.again (.seq hr runs_gaps) hne (.seq runs_gaps hx)
      rw [Outcome.verdict, ht.verdict] at hagain
      exact hagain
    · have hstopped := Judged.stopped rfl (.seq_first rfl hx)
      rw [Outcome.verdict, ht.verdict] at hstopped
      exact hstopped
  · obtain ⟨r, hr, hend⟩ := hitems
    have hfile : Runs file s (.read (skipGap r)) := .seq hr runs_gaps
    rw [hend] at hfile
    exact .accepted hfile

/-! ## Complete items -/

theorem suffix_of_itemsTo (h : ItemsTo s is r) : r <:+ s := by
  induction h with
  | none => exact List.suffix_refl _
  | more hitem _ ih =>
    exact (ih.trans (runs_item hitem).within).trans (List.dropWhile_suffix isGap)

theorem itemsTo_error (h : Parser.items s = .error e) :
    ∃ is r, ItemsTo s is r ∧ Parser.item (skipGap r) = .error e := by
  fun_induction Parser.items s with
  | case1 => cases h
  | case2 s c cs hskip e' hitem =>
    cases h
    exact ⟨[], s, .none, hskip ▸ hitem⟩
  | case3 s c cs hskip first rest hlt hitem hrest e' he ih =>
    cases h
    obtain ⟨is, r, hr, hfail⟩ := ih he
    refine ⟨first :: is, r, .more (Parsed.map_pair_ok.2 ?_) hr, hfail⟩
    rw [hskip]
    exact ⟨hlt, hitem⟩
  | case4 => cases h

theorem rest_suffix (h : Parser.item s = .error e) : e.rest <:+ s := by
  have hitem := stops_item s
  rw [h] at hitem
  obtain ⟨t, ht, hx⟩ := hitem
  have hplaces : ∀ p ∈ t, p.1 <:+ s := by
    rcases hx with hx | hx
    · exact hx.within.2
    · exact hx.within.2
  cases t with
  | nil => cases ht
  | cons p more =>
    obtain ⟨hrest, -⟩ := Prod.mk.inj (Option.some.inj ht)
    exact hrest ▸ hplaces p (by simp)

end Recognizer

/-! ## Places in a text -/

namespace Text

def FirstWord (s word : List Char) : Prop :=
  ∃ blanks tail, s = blanks ++ word ++ tail ∧ (∀ c ∈ blanks, isBlank c) ∧
    word ≠ [] ∧ (∀ c ∈ word, isBlank c = false) ∧ tail.head?.all isBlank

variable {s word : List Char}

theorem firstWord?_eq_some (h : firstWord? s = some word) : FirstWord s word := by
  have hstop := head?_dropWhile (p := (!isBlank ·)) (s := s.dropWhile isBlank)
  have hsplit : s = s.takeWhile isBlank ++ (s.dropWhile isBlank).takeWhile (!isBlank ·) ++
      (s.dropWhile isBlank).dropWhile (!isBlank ·) := by
    rw [List.append_assoc, List.takeWhile_append_dropWhile, List.takeWhile_append_dropWhile]
  rw [firstWord?] at h
  split at h
  · cases h
  · next hne =>
    cases h
    refine ⟨_, _, hsplit, List.all_eq_true.1 List.all_takeWhile, hne, fun c hc => ?_, ?_⟩
    · simpa using List.all_eq_true.1 List.all_takeWhile c hc
    · cases hc : ((s.dropWhile isBlank).dropWhile (!isBlank ·)).head? with
      | none => rfl
      | some c => simpa [hc] using hstop

theorem firstWord?_eq_none (h : firstWord? s = none) : ∀ c ∈ s, isBlank c := by
  have hstart := head?_dropWhile (p := isBlank) (s := s)
  rw [firstWord?] at h
  split at h
  · next hnil =>
    -- no word begins after the blanks, and no blank is left there
    cases hs : s.dropWhile isBlank with
    | nil => exact List.dropWhile_eq_nil_iff.1 hs
    | cons c cs =>
      rw [hs] at hstart hnil
      have hc : isBlank c = false := hstart
      simp [hc] at hnil
  · cases h

end Text

structure ReportedAfter (front rest : List Char) (e : ParseError) : Prop where
  line : e.line = 1 + front.count '\n'
  column : ∃ above last, front = above ++ last ∧ (above = [] ∨ ∃ u, above = u ++ ['\n']) ∧
    '\n' ∉ last ∧ e.column = 1 + last.length
  found : (∀ c ∈ rest, isBlank c) ∧ e.found = none ∨
    ∃ word, Text.FirstWord rest word ∧ e.found = some (word.take 20)

theorem columnAfter_spec (front : List Char) : ∃ above last, front = above ++ last ∧
    (above = [] ∨ ∃ u, above = u ++ ['\n']) ∧ '\n' ∉ last ∧ columnAfter front = 1 + last.length := by
  have hsplit : front = (front.reverse.dropWhile (· ≠ '\n')).reverse ++
      (front.reverse.takeWhile (· ≠ '\n')).reverse := by
    rw [← List.reverse_append, List.takeWhile_append_dropWhile, List.reverse_reverse]
  refine ⟨_, _, hsplit, ?_, ?_, ?_⟩
  · have hstop := Text.head?_dropWhile (p := (decide <| · ≠ '\n')) (s := front.reverse)
    cases h : front.reverse.dropWhile (· ≠ '\n') with
    | nil => exact .inl rfl
    | cons c cs =>
      rw [h] at hstop
      obtain rfl : c = '\n' := by simpa using hstop
      exact .inr ⟨cs.reverse, List.reverse_cons⟩
  · rw [List.mem_reverse]
    intro hmem
    simpa using List.all_eq_true.1 List.all_takeWhile _ hmem
  · rw [columnAfter, List.length_reverse, Nat.add_comm]

theorem reportedAfter_locate {front : List Char} {e : SyntaxError} :
    ReportedAfter front e.rest (e.locate (front ++ e.rest)) := by
  have hfront : (front ++ e.rest).take ((front ++ e.rest).length - e.rest.length) = front := by
    simp
  refine ⟨?_, ?_, ?_⟩
  · rw [SyntaxError.locate, hfront]
    exact Nat.add_comm _ _
  · rw [SyntaxError.locate, hfront]
    exact columnAfter_spec front
  · cases hword : Text.firstWord? e.rest with
    | none =>
      refine .inl ⟨Text.firstWord?_eq_none hword, ?_⟩
      simp [SyntaxError.locate, hword]
    | some word =>
      refine .inr ⟨word, Text.firstWord?_eq_some hword, ?_⟩
      simp [SyntaxError.locate, hword, foundWidth]

theorem message_locate (e : SyntaxError) (source : List Char) :
    (e.locate source).message = e.cause.message ++ ", " ++ foundText e.rest := by
  rw [SyntaxError.locate, ParseError.message, foundText]
  cases Text.firstWord? e.rest <;> rfl

theorem exists_pos {source : String} {front rest : List Char} (h : source.toList = front ++ rest) :
    ∃ p : source.Pos,
      p.offset.byteIdx = source.utf8ByteSize - (String.ofList rest).utf8ByteSize ∧
      (source.sliceTo p).copy = String.ofList front := by
  have hsource : source = String.ofList front ++ String.ofList rest := by
    rw [← String.ofList_append, ← h, String.ofList_toList]
  have hsplits := String.Pos.splits_ofEqAppend hsource
  refine ⟨_, ?_, hsplits.copy_sliceTo_eq⟩
  rw [hsplits.offset_eq_rawEndPos, hsource, String.utf8ByteSize_append, Nat.add_sub_cancel]
  rfl

namespace SourceFile

theorem parse_error_iff : parse s = .error e ↔ ∃ e', Parser.items s = .error e' ∧ e'.locate s = e := by
  rw [parse]
  cases Parser.items s <;> simp

/-- Where a rejected text is reported. The text is split there: lines and columns count what stands
in front, the word that was found is the first one behind. All items that are complete stand in
front. The split is between two characters, however many bytes they take, and there is a place in
the trace of every rejected text, so that no other report is ever made. -/
theorem parse_error_place {source : String} {e : ParseError}
    (h : parse source.toList = .error e) : ∃ front rest,
    source.toList = front ++ rest ∧ ReportedAfter front rest e ∧
    (∃ is s taken, ItemsTo source.toList is s ∧ Parser.item (skipGap s) = .error ⟨e.cause, rest⟩ ∧
      source.toList = taken ++ s ∧ taken.length ≤ front.length) ∧
    (∃ p : source.Pos,
      p.offset.byteIdx = source.utf8ByteSize - (String.ofList rest).utf8ByteSize ∧
      (source.sliceTo p).copy = String.ofList front) ∧
    ∀ v, Judged source.toList v ↔ v = .located rest e.message := by
  obtain ⟨e, hitems, rfl⟩ := parse_error_iff.1 h
  obtain ⟨is, s, hread, hfail⟩ := Recognizer.itemsTo_error hitems
  obtain ⟨taken, htaken⟩ := Recognizer.suffix_of_itemsTo hread
  obtain ⟨between, hbetween⟩ : e.rest <:+ s :=
    (Recognizer.rest_suffix hfail).trans (List.dropWhile_suffix isGap)
  have hsource : source.toList = (taken ++ between) ++ e.rest := by
    rw [List.append_assoc, hbetween, htaken]
  refine ⟨taken ++ between, e.rest, hsource, ?reported, ?items, exists_pos hsource, ?judged⟩
  case reported =>
    rw [hsource]
    exact reportedAfter_locate
  case items => exact ⟨is, s, taken, hread, hfail, htaken.symm, by simp⟩
  case judged =>
    have hlocated := Recognizer.judged_items source.toList
    rw [hitems] at hlocated
    replace hlocated : Judged source.toList (.located e.rest (e.locate source.toList).message) := by
      rw [message_locate]
      exact hlocated
    exact fun v => ⟨fun hv => hv.unique hlocated, fun hv => hv ▸ hlocated⟩

theorem parse_error_sample : parse "// é\ntype A = Ä;\n".toList =
    .error ⟨2, 10, .expected .type, some ['Ä', ';']⟩ := by
  with_unfolding_all rfl

theorem parse_error_place_sample :
    parse "// é\ntype A = Ä;\n".toList = .error ⟨2, 10, .expected .type, some ['Ä', ';']⟩ ∧
      ∃ front rest, "// é\ntype A = Ä;\n".toList = front ++ rest ∧
        ReportedAfter front rest ⟨2, 10, .expected .type, some ['Ä', ';']⟩ ∧
        ∃ p : "// é\ntype A = Ä;\n".Pos, p.offset.byteIdx =
            "// é\ntype A = Ä;\n".utf8ByteSize - (String.ofList rest).utf8ByteSize ∧
          ("// é\ntype A = Ä;\n".sliceTo p).copy = String.ofList front := by
  obtain ⟨front, rest, hsource, hreported, -, hpos, -⟩ := parse_error_place parse_error_sample
  exact ⟨parse_error_sample, front, rest, hsource, hreported, hpos⟩

end SourceFile

end ModelTypes
