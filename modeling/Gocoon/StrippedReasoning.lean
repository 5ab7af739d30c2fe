import Gocoon.SpanRemoval

/-!
# What is left of a text without its reasoning

`stripThinkBlocks` joins the pieces of a text outside its think spans. The result holds no open
tag, and a second run changes nothing, unless the spans of the text tear an open tag apart.
-/

namespace Gocoon.StrippedReasoning

open Gocoon.TlPrimitives (GoString ascii)
open Gocoon.ToolTranslation
open Gocoon.TaggedText
open Gocoon.SpanRemoval

set_option autoImplicit false

/-- Nothing of the reasoning is left, and nothing else is lost. -/
structure Stripped (text : GoString) : Prop where
  untagged : ¬ thinkOpenTag <:+: stripThinkBlocks text
  idempotent : stripThinkBlocks (stripThinkBlocks text) = stripThinkBlocks text
  kept : (∃ pieces, Outside thinkOpenTag thinkCloseTag text pieces) ∧
    ∀ pieces, Outside thinkOpenTag thinkCloseTag text pieces →
      stripThinkBlocks text = pieces.flatten

/-- The spans of the text tear an open tag apart: its parts stand in different pieces, with
nothing but spans and whole pieces between them. -/
def TornTag (text : GoString) : Prop :=
  ∃ pieces, Outside thinkOpenTag thinkCloseTag text pieces ∧ AcrossSeam thinkOpenTag pieces

theorem tagged_iff_torn (text : GoString) :
    thinkOpenTag <:+: stripThinkBlocks text ↔ TornTag text := by
  constructor
  · rintro ⟨front, back, same⟩
    obtain ⟨pieces, outside⟩ := outside_exists think_tags text
    have occurs : HasSpan thinkOpenTag [] pieces.flatten := by
      rw [← think_left outside]
      exact ⟨front, back, by rw [← same, List.append_assoc], List.nil_infix⟩
    exact ⟨pieces, outside, ((outside.has_span_iff think_tags).mp occurs).across⟩
  · rintro ⟨pieces, outside, across⟩
    obtain ⟨front, back, same, -⟩ := across.torn.hasSpan
    rw [think_left outside, same]
    exact ⟨front, back, List.append_assoc _ _ _⟩

/-- The reasoning is removed completely and once for all exactly if no span of the text tears an
open tag apart. -/
theorem reasoning_stripped_iff (text : GoString) : Stripped text ↔ ¬ TornTag text := by
  constructor
  · intro stripped torn
    exact stripped.untagged ((tagged_iff_torn text).mpr torn)
  · intro whole
    have untagged : ¬ thinkOpenTag <:+: stripThinkBlocks text :=
      fun tagged => whole ((tagged_iff_torn text).mp tagged)
    exact ⟨untagged, strip_think_clean untagged, outside_exists think_tags text,
      fun pieces outside => think_left outside⟩

/-- The two sides of the span spell an open tag, which a second run takes for the start of a
span. -/
theorem torn_tag_left :
    stripThinkBlocks (ascii "<th<think></think>ink>") = thinkOpenTag ∧
      stripThinkBlocks (stripThinkBlocks (ascii "<th<think></think>ink>")) = [] ∧
      ¬ Stripped (ascii "<th<think></think>ink>") := by
  have once : stripThinkBlocks (ascii "<th<think></think>ink>") = thinkOpenTag := by decide
  refine ⟨once, by decide, ?_⟩
  intro stripped
  apply stripped.untagged
  rw [once]

end Gocoon.StrippedReasoning
