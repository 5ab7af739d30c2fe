import Gocoon.TaggedText

/-!
# What is left when spans are removed

The loops that remove spans search the text that they are given and never the text that they
leave. A text is cut into the pieces outside its spans, and what is left are these pieces,
joined. No piece holds an open tag. A tag in the joined text therefore starts in one piece and
ends in a later one: the spans between them tore it apart in the original text.
-/

namespace Gocoon.SpanRemoval

open Gocoon.LittleEndianBytes
open Gocoon.TlPrimitives (GoString ascii)
open Gocoon.Utf8Text
open Gocoon.JsonPrinting (angle)
open Gocoon.GoStrings
open Gocoon.ToolTranslation
open Gocoon.ToolCallHistory
open Gocoon.TaggedText

set_option autoImplicit false

/-! ## Words in a joined text -/

section Seams

variable {Letter : Type} {word stop : List Letter} {pieces : List (List Letter)}

/-- The word, with the other one somewhere behind it. -/
def HasSpan (word stop text : List Letter) : Prop :=
  ∃ before after, text = before ++ (word ++ after) ∧ stop <:+: after

/-- The word starts in one piece and ends in a later one. -/
def AcrossSeam (word : List Letter) (pieces : List (List Letter)) : Prop :=
  ∃ before front head middle tail back after,
    pieces = before ++ (front ++ head) :: (middle ++ (tail ++ back) :: after) ∧
      word = head ++ (middle.flatten ++ tail) ∧ head ≠ [] ∧ tail ≠ []

/-- The word starts in one piece and ends in a later one, and the other one stands behind it. -/
def TornSpan (word stop : List Letter) (pieces : List (List Letter)) : Prop :=
  ∃ before front head middle tail back after,
    pieces = before ++ (front ++ head) :: (middle ++ (tail ++ back) :: after) ∧
      word = head ++ (middle.flatten ++ tail) ∧ head ≠ [] ∧ tail ≠ [] ∧
      stop <:+: back ++ after.flatten

/-- The word stands in one piece, and the other one behind it. -/
def KeptSpan (word stop : List Letter) (pieces : List (List Letter)) : Prop :=
  ∃ before front back after, pieces = before ++ (front ++ (word ++ back)) :: after ∧
    stop <:+: back ++ after.flatten

theorem starts_flatten {more : List Letter} (nonempty : word ≠ [])
    (same : pieces.flatten = word ++ more) :
    ∃ middle tail back after, pieces = middle ++ (tail ++ back) :: after ∧
      word = middle.flatten ++ tail ∧ tail ≠ [] ∧ more = back ++ after.flatten := by
  induction pieces generalizing word with
  | nil => exact absurd (List.append_eq_nil_iff.mp same.symm).1 nonempty
  | cons piece pieces induction =>
      rw [List.flatten_cons] at same
      rcases List.append_eq_append_iff.mp same with ⟨gap, rfl, later⟩ | ⟨gap, rfl, rfl⟩
      · by_cases ended : gap = []
        · subst ended
          rw [List.append_nil] at nonempty
          exact ⟨[], piece, [], pieces, by simp, by simp, nonempty, by simpa using later.symm⟩
        · obtain ⟨middle, tail, back, after, rfl, rfl, some, rest⟩ := induction ended later
          exact ⟨piece :: middle, tail, back, after, rfl, by simp, some, rest⟩
      · exact ⟨[], word, gap, pieces, rfl, rfl, nonempty, rfl⟩

theorem TornSpan.cons (piece : List Letter) (torn : TornSpan word stop pieces) :
    TornSpan word stop (piece :: pieces) := by
  obtain ⟨before, front, head, middle, tail, back, after, rfl, spelled⟩ := torn
  exact ⟨piece :: before, front, head, middle, tail, back, after, rfl, spelled⟩

theorem KeptSpan.cons (piece : List Letter) (kept : KeptSpan word stop pieces) :
    KeptSpan word stop (piece :: pieces) := by
  obtain ⟨before, front, back, after, rfl, stops⟩ := kept
  exact ⟨piece :: before, front, back, after, rfl, stops⟩

theorem AcrossSeam.torn (across : AcrossSeam word pieces) : TornSpan word [] pieces := by
  obtain ⟨before, front, head, middle, tail, back, after, rfl, spelled, some, more⟩ := across
  exact ⟨before, front, head, middle, tail, back, after, rfl, spelled, some, more,
    List.nil_infix⟩

theorem TornSpan.across (torn : TornSpan word stop pieces) : AcrossSeam word pieces := by
  obtain ⟨before, front, head, middle, tail, back, after, rfl, spelled, some, more, -⟩ := torn
  exact ⟨before, front, head, middle, tail, back, after, rfl, spelled, some, more⟩

theorem TornSpan.hasSpan (torn : TornSpan word stop pieces) :
    HasSpan word stop pieces.flatten := by
  obtain ⟨before, front, head, middle, tail, back, after, rfl, rfl, -, -, stops⟩ := torn
  exact ⟨before.flatten ++ front, back ++ after.flatten, by simp, stops⟩

theorem KeptSpan.hasSpan (kept : KeptSpan word stop pieces) :
    HasSpan word stop pieces.flatten := by
  obtain ⟨before, front, back, after, rfl, stops⟩ := kept
  exact ⟨before.flatten ++ front, back ++ after.flatten, by simp, stops⟩

theorem not_has_span_nil (nonempty : word ≠ []) : ¬ HasSpan word stop [] := by
  rintro ⟨before, after, same, -⟩
  have empty := (List.append_eq_nil_iff.mp same.symm).2
  exact nonempty (List.append_eq_nil_iff.mp empty).1

theorem has_span_flatten (nonempty : word ≠ []) :
    HasSpan word stop pieces.flatten ↔ KeptSpan word stop pieces ∨ TornSpan word stop pieces := by
  constructor
  · induction pieces with
    | nil => exact fun span => absurd span (not_has_span_nil nonempty)
    | cons piece pieces induction =>
        have later : HasSpan word stop pieces.flatten →
            KeptSpan word stop (piece :: pieces) ∨ TornSpan word stop (piece :: pieces) :=
          fun behind => (induction behind).imp (KeptSpan.cons piece) (TornSpan.cons piece)
        rintro ⟨before, after, same, stops⟩
        rw [List.flatten_cons] at same
        rcases List.append_eq_append_iff.mp same with ⟨gap, rfl, behind⟩ | ⟨gap, rfl, behind⟩
        · exact later ⟨gap, after, behind, stops⟩
        -- The word starts at `gap`, in the first piece or right behind it.
        rcases List.append_eq_append_iff.mp behind.symm with ⟨rest, rfl, ending⟩ | ⟨rest, rfl, rfl⟩
        · by_cases noHead : gap = []
          · subst noHead
            exact later ⟨[], after, ending, stops⟩
          · by_cases noTail : rest = []
            · subst noTail
              left
              refine ⟨[], before, [], pieces, by simp, ?_⟩
              rw [ending]
              exact stops
            · right
              obtain ⟨middle, tail, back, others, rfl, rfl, some, rfl⟩ :=
                starts_flatten noTail ending
              exact ⟨[], before, gap, middle, tail, back, others, rfl, rfl, noHead, some, stops⟩
        · left
          exact ⟨[], before, rest, pieces, rfl, stops⟩
  · exact fun either => either.elim KeptSpan.hasSpan TornSpan.hasSpan

end Seams

/-! ## The pieces outside the spans -/

/-- The pieces of a text outside its spans. A span reaches from an open tag to the end of the
first close tag behind it, and to the end of the text if there is none. -/
inductive Outside (openTag closeTag : GoString) : GoString → List GoString → Prop where
  | plain {text : GoString} (untagged : ¬ openTag <:+: text) : Outside openTag closeTag text [text]
  | unclosed {front inner : GoString} (untagged : ¬ openTag <:+: front)
      (endless : ¬ closeTag <:+: inner) :
      Outside openTag closeTag (front ++ (openTag ++ inner)) [front]
  | span {front inner rest : GoString} {pieces : List GoString}
      (untagged : ¬ openTag <:+: front) (first : ¬ closeTag <:+: inner)
      (later : Outside openTag closeTag rest pieces) :
      Outside openTag closeTag (front ++ (openTag ++ (inner ++ (closeTag ++ rest))))
        (front :: pieces)

section Pieces

variable {openTag closeTag text : GoString} {pieces : List GoString}

theorem outside_exists (tags : TagPair openTag closeTag) (text : GoString) :
    ∃ pieces, Outside openTag closeTag text pieces := by
  induction size : text.length using Nat.strong_induction_on generalizing text with
  | _ size induction =>
      subst size
      cases opened : index openTag text with
      | none => exact ⟨[text], .plain ((index_eq_none_iff _ _).mp opened)⟩
      | some start =>
          obtain ⟨front, behind, rfl, untagged⟩ := tags.opening.split opened
          cases closed : index closeTag behind with
          | none => exact ⟨[front], .unclosed untagged ((index_eq_none_iff _ _).mp closed)⟩
          | some stop =>
              obtain ⟨inner, rest, rfl, first⟩ := tags.closing.split closed
              have shorter : rest.length <
                  (front ++ (openTag ++ (inner ++ (closeTag ++ rest)))).length := by
                have closing := tags.close_length
                simp only [List.length_append]
                omega
              obtain ⟨pieces, later⟩ := induction rest.length shorter rest rfl
              exact ⟨front :: pieces, .span untagged first later⟩

theorem Outside.flatten (tags : TagPair openTag closeTag)
    (outside : Outside openTag closeTag text pieces) :
    withoutSpans openTag closeTag text = pieces.flatten := by
  induction outside with
  | plain untagged => rw [without_spans_clean untagged, List.flatten_singleton]
  | unclosed untagged endless =>
      rw [tags.strip_unclosed untagged endless, List.flatten_singleton]
  | span untagged first later induction =>
      rw [tags.strip_span untagged first, induction, List.flatten_cons]

theorem Outside.untagged (outside : Outside openTag closeTag text pieces) :
    ∀ piece ∈ pieces, ¬ openTag <:+: piece := by
  induction outside with
  | plain untagged => exact List.forall_mem_singleton.mpr untagged
  | unclosed untagged endless => exact List.forall_mem_singleton.mpr untagged
  | span untagged first later induction => exact List.forall_mem_cons.mpr ⟨untagged, induction⟩

/-- A span is left only if its open tag was torn apart. -/
theorem Outside.has_span_iff (tags : TagPair openTag closeTag) {stop : GoString}
    (outside : Outside openTag closeTag text pieces) :
    HasSpan openTag stop pieces.flatten ↔ TornSpan openTag stop pieces := by
  obtain ⟨name, opens, -⟩ := tags.opening
  have nonempty : openTag ≠ [] := by simp [opens]
  rw [has_span_flatten nonempty]
  refine ⟨fun either => either.resolve_left ?_, .inr⟩
  rintro ⟨before, front, back, after, rfl, -⟩
  exact outside.untagged _ (List.mem_append_right _ List.mem_cons_self)
    ⟨front, back, by simp⟩

/-- Without a complete span only an end of the text is removed. -/
theorem Outside.front (outside : Outside openTag closeTag text pieces)
    (spanless : ¬ HasSpan openTag closeTag text) : pieces.flatten <+: text := by
  cases outside with
  | plain untagged => simp
  | unclosed untagged endless => simp
  | @span front inner rest pieces untagged first later =>
      exact absurd ⟨front, inner ++ (closeTag ++ rest), rfl, inner, rest, by simp⟩ spanless

/-- Removing spans between ASCII tags keeps a text well-formed. -/
theorem Outside.well_formed (tags : TagPair openTag closeTag)
    (small : ∀ byte ∈ closeTag, byte < 0x80) (outside : Outside openTag closeTag text pieces)
    (well : WellFormed text) : WellFormed pieces.flatten := by
  obtain ⟨name, rfl, -⟩ := tags.opening
  obtain ⟨closeName, rfl, -⟩ := tags.closing
  have angleSmall : angle < 0x80 := by decide
  induction outside with
  | plain untagged =>
      rw [List.flatten_singleton]
      exact well
  | unclosed untagged endless =>
      rw [List.flatten_singleton]
      exact (well.cut angleSmall).1
  | @span front inner rest pieces untagged first later induction =>
      rw [List.flatten_cons]
      have wellSpan : WellFormed ((angle :: name ++ inner) ++ angle :: (closeName ++ rest)) := by
        simpa using (well.cut angleSmall).2
      have wellRest : WellFormed rest := (wellSpan.cut angleSmall).2.behind small
      exact (well.cut angleSmall).1.append (induction wellRest)

end Pieces

/-! ## Trimming -/

section Trimming

variable {openTag closeTag : GoString}

theorem has_span_iff (openTag closeTag text : GoString) :
    HasSpan openTag closeTag text ↔ ∃ inner, openTag ++ (inner ++ closeTag) <:+: text := by
  constructor
  · intro span
    obtain ⟨before, after, rfl, inner, rest, rfl⟩ := span
    exact ⟨inner, before, rest, by simp⟩
  · intro occurs
    obtain ⟨inner, before, rest, rfl⟩ := occurs
    exact ⟨before, inner ++ (closeTag ++ rest), by simp, inner, rest, by simp⟩

theorem infix_between {first last : Byte} {inner front text back : GoString}
    (apartFront : first ∉ front) (apartBack : last ∉ back)
    (occurs : first :: (inner ++ [last]) <:+: front ++ (text ++ back)) :
    first :: (inner ++ [last]) <:+: text := by
  have ending : (first :: inner) ++ [last] <:+: text ++ back →
      (first :: inner) ++ [last] <:+: text := infix_ending apartBack
  rw [List.cons_append] at ending
  obtain ⟨before, after, same⟩ := occurs
  rw [List.append_assoc] at same
  rcases List.append_eq_append_iff.mp same with ⟨gap, rfl, behind⟩ | ⟨gap, rfl, behind⟩
  · cases gap with
    | nil =>
        exact ending ⟨[], after, behind⟩
    | cons byte gap =>
        have head : first = byte := (List.cons.inj behind).1
        exact absurd (by simp [head]) apartFront
  · rw [← List.append_assoc] at behind
    exact ending ⟨gap, after, behind.symm⟩

/-- Tags stand between angle brackets, so trimming a text leaves its spans. -/
theorem has_span_trim {openName closeName : GoString} (opens : openTag = angle :: openName)
    (closes : closeTag = closeName ++ [0x3E]) (text : GoString) :
    HasSpan openTag closeTag (trimSpace text) ↔ HasSpan openTag closeTag text := by
  obtain ⟨front, back, whole, spacesFront, spacesBack⟩ := trim_space_split text
  have apartFront : angle ∉ front := fun inside => absurd (spacesFront angle inside) (by decide)
  have apartBack : (0x3E : Byte) ∉ back := fun inside => absurd (spacesBack 0x3E inside) (by decide)
  rw [has_span_iff, has_span_iff, opens, closes]
  apply exists_congr
  intro inner
  rw [← List.append_assoc inner, List.cons_append, ← List.append_assoc]
  constructor
  · intro occurs
    rw [whole]
    exact occurs.trans ⟨front, back, by rw [List.append_assoc]⟩
  · intro occurs
    rw [whole] at occurs
    exact infix_between apartFront apartBack occurs

end Trimming

/-! ## The visible text -/

section Visible

variable {content : GoString} {pieces left : List GoString}

theorem think_left (outside : Outside thinkOpenTag thinkCloseTag content pieces) :
    stripThinkBlocks content = pieces.flatten := outside.flatten think_tags

theorem visible_left (outside : Outside thinkOpenTag thinkCloseTag content pieces)
    (further : Outside toolCallOpenTag toolCallCloseTag pieces.flatten left) :
    stripThinkAndToolCalls content = trimSpace left.flatten := by
  have without : stripSpans toolCallOpenTag toolCallCloseTag pieces.flatten.length pieces.flatten =
      left.flatten := further.flatten call_tags
  rw [stripThinkAndToolCalls]
  simp only [think_left outside, without]

/-- A think span in the visible text starts with a tag that the think spans tore apart and no call
span covers, or with one that the call spans tore apart. -/
theorem visible_think_iff (outside : Outside thinkOpenTag thinkCloseTag content pieces)
    (further : Outside toolCallOpenTag toolCallCloseTag pieces.flatten left) :
    HasSpan thinkOpenTag thinkCloseTag (stripThinkAndToolCalls content) ↔
      KeptSpan thinkOpenTag thinkCloseTag left ∨ TornSpan thinkOpenTag thinkCloseTag left := by
  have closes : thinkCloseTag = ascii "</think" ++ [0x3E] := by decide
  rw [visible_left outside further, has_span_trim think_angle closes]
  exact has_span_flatten (by decide)

theorem visible_call_iff (outside : Outside thinkOpenTag thinkCloseTag content pieces)
    (further : Outside toolCallOpenTag toolCallCloseTag pieces.flatten left) :
    HasSpan toolCallOpenTag toolCallCloseTag (stripThinkAndToolCalls content) ↔
      TornSpan toolCallOpenTag toolCallCloseTag left := by
  have closes : toolCallCloseTag = ascii "</tool_call" ++ [0x3E] := by decide
  rw [visible_left outside further, has_span_trim open_tag_angle closes]
  exact further.has_span_iff call_tags

theorem strip_think_well_formed (well : WellFormed content) :
    WellFormed (stripThinkBlocks content) := by
  obtain ⟨pieces, outside⟩ := outside_exists think_tags content
  rw [think_left outside]
  exact outside.well_formed think_tags (List.forall_iff_forall_mem.mp (by decide)) well

theorem visible_well_formed (well : WellFormed content) :
    WellFormed (stripThinkAndToolCalls content) := by
  obtain ⟨pieces, outside⟩ := outside_exists think_tags content
  obtain ⟨left, further⟩ := outside_exists call_tags pieces.flatten
  have kept : WellFormed pieces.flatten := by
    rw [← think_left outside]
    exact strip_think_well_formed well
  rw [visible_left outside further]
  apply trim_space_well_formed
  exact further.well_formed call_tags (List.forall_iff_forall_mem.mp (by decide)) kept

end Visible

end Gocoon.SpanRemoval
