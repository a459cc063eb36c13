import ModelTypes.Proofs.Declaration.Printing
import ModelTypes.Proofs.Json.Quoted
import ModelTypes.Proofs.Template.Builtin

/-!
# Written literals

What is written for a text, by the printer of declarations or by a template, is read back as that
text, whatever follows it. The printer leaves no control character in it and takes the quote that
needs fewer backslashes.
-/

namespace ModelTypes.Literal

variable {preferred quote q : Char} {v : List Char}

/-! ## Control characters -/

theorem isControl_of_isQuote (h : isQuote c) : isControl c = false := by
  rcases eq_of_isQuote h with rfl | rfl <;> rfl

theorem isControl_of_all {cs : List Char} (h : cs.all (!isControl ·)) (hd : d ∈ cs) :
    isControl d = false := by
  simpa using List.all_eq_true.1 h d hd

theorem isControl_of_mem_toDigits (hc : isControl c) (hd : d ∈ Nat.toDigits 16 c.toNat) :
    isControl d = false := by
  -- as for the codes of control characters: all of them can be tried
  have hsmall : (List.range 0xA0).all fun n => (Nat.toDigits 16 n).all (!isControl ·) := by
    decide +kernel
  have hn : c.toNat ∈ List.range 0xA0 := List.mem_range.2 (by simp [isControl] at hc; omega)
  exact isControl_of_all (List.all_eq_true.1 hsmall _ hn) hd

theorem isControl_of_mem_encodeChar (hq : isQuote quote) (hd : d ∈ encodeChar quote c) :
    isControl d = false := by
  -- no part of an escape is a control character, and a character without one is none
  unfold encodeChar at hd
  split at hd
  · exact isControl_of_all rfl hd
  split at hd
  · exact isControl_of_all rfl hd
  split at hd
  · exact isControl_of_all rfl hd
  split at hd
  · exact isControl_of_all rfl hd
  split at hd
  · next hc =>
    rw [hc] at hd
    rcases List.mem_cons.1 hd with rfl | hd
    · rfl
    · obtain rfl := List.mem_singleton.1 hd
      exact isControl_of_isQuote hq
  split at hd
  · next hc =>
    simp only [List.mem_append, List.mem_cons, List.not_mem_nil, or_false] at hd
    rcases hd with ((rfl | rfl | rfl) | hd) | rfl
    · rfl
    · rfl
    · rfl
    · exact isControl_of_mem_toDigits hc hd
    · rfl
  · next hc =>
    obtain rfl := List.mem_singleton.1 hd
    simpa using hc

theorem isControl_of_mem_encode (hp : isQuote preferred) (hd : d ∈ encode preferred v) :
    isControl d = false := by
  have hq : isQuote (quoteFor preferred v) := isQuote_quoteFor hp
  simp only [encode, List.mem_append, List.mem_singleton, List.mem_flatMap] at hd
  rcases hd with (rfl | ⟨c, -, hd⟩) | rfl
  · exact isControl_of_isQuote hq
  · exact isControl_of_mem_encodeChar hq hd
  · exact isControl_of_isQuote hq

/-! ## Quotes -/

/-- How many quotes of a text take a backslash between two `quote`s. -/
def escapedQuotes (quote : Char) (v : List Char) : Nat :=
  v.countP fun c => isQuote c && encodeChar quote c != [c]

theorem isQuote_alternate : isQuote (alternate q) := by
  unfold alternate
  split <;> rfl

theorem alternate_alternate (h : isQuote q) : alternate (alternate q) = q := by
  rcases eq_of_isQuote h with rfl | rfl <;> rfl

theorem escapedQuotes_eq (h : isQuote q) : escapedQuotes q v = v.count q := by
  have hsame : ∀ c, (isQuote c && encodeChar q c != [c]) = (c == q) := by
    intro c
    cases hc : isQuote c with
    | false =>
      have hne : c ≠ q := by rintro rfl; rw [h] at hc; cases hc
      simp [hne]
    | true =>
      rcases eq_of_isQuote h with rfl | rfl <;> rcases eq_of_isQuote hc with rfl | rfl <;> rfl
  rw [escapedQuotes, List.count, funext hsame]

theorem count_quoteFor_le (hp : isQuote preferred) :
    v.count (quoteFor preferred v) ≤ v.count (alternate (quoteFor preferred v)) := by
  unfold quoteFor
  split
  · rw [alternate_alternate hp]
    omega
  · omega

/-! ## Reading back -/

theorem read_literalText (h : Grammar.LiteralText u v) (r : List Char) :
    (Parser.literal? (u ++ r)).map (·.map Parsed.pair) = .ok (some (v, r)) :=
  Parser.literal?_iff.2 ⟨u, h, rfl⟩

/-- Literals are read back as the text they were written for, up to where they end. This holds of
those that are printed and of those that a template quotes. A printed one has no control characters
and is enclosed in the quote that needs no more backslashes than the other. -/
theorem written_literal_read_back (style : Style) (v r : List Char) :
    (Parser.literal? (encode style.preferredQuote v ++ r)).map (·.map Parsed.pair) =
        .ok (some (v, r)) ∧
      (∀ scope outer operand,
        Template.Operand.eval scope outer operand = .ok (some (.text (String.ofList v))) →
        ∃ u, Template.renderNode scope outer (.quote operand) = .ok u ∧
          (Parser.literal? (u ++ r)).map (·.map Parsed.pair) = .ok (some (v, r))) ∧
      (∀ c ∈ encode style.preferredQuote v, isControl c = false) ∧
      ∃ quote, isQuote quote ∧
        encode style.preferredQuote v = quote :: v.flatMap (encodeChar quote) ++ [quote] ∧
        escapedQuotes quote v ≤ escapedQuotes (alternate quote) v := by
  have hp : isQuote style.preferredQuote := Style.isQuote_preferredQuote
  have hq : isQuote (quoteFor style.preferredQuote v) := isQuote_quoteFor hp
  refine ⟨read_literalText (literalText_encode hp) r, ?template, fun _ => isControl_of_mem_encode hp,
    quoteFor style.preferredQuote v, hq, rfl, ?quotes⟩
  case template =>
    intro scope outer operand h
    refine ⟨Json.encode v, ?_, read_literalText Json.literalText_encode r⟩
    rw [Template.render_quote h, String.toList_ofList]
  case quotes =>
    rw [escapedQuotes_eq hq, escapedQuotes_eq isQuote_alternate]
    exact count_quoteFor_le hp

def sampleText : List Char :=
  ['i', 't', '\'', 's', ' ', '\\', '"', '\x01', '\x7f', '\n', '😀', '"']

theorem written_literal_read_back_sample :
    Template.Operand.eval ⟨.list [], none⟩ [] (.text (String.ofList sampleText)) =
        .ok (some (.text (String.ofList sampleText))) ∧
      ∃ u, Template.renderNode ⟨.list [], none⟩ [] (.quote (.text (String.ofList sampleText))) =
          .ok u ∧
        (Parser.literal? (u ++ ['"', '|'])).map (·.map Parsed.pair) =
          .ok (some (sampleText, ['"', '|'])) :=
  ⟨rfl, (written_literal_read_back {} sampleText ['"', '|']).2.1 _ _ _ rfl⟩

end ModelTypes.Literal
