import Gocoon.CallRecovery
import Mathlib.Data.List.Forall2

/-!
# The visible text of an answer

A call is extracted by its JSON structure, but its block is removed up to the first close tag.
What is left of a block is the text behind an inner close tag, up to the next open tag or to
the end of the block. Nothing is left exactly when every close tag that the search meets
inside the object is followed by an open tag at once.
-/

namespace Gocoon.VisibleText

open Gocoon.LittleEndianBytes
open Gocoon.TlPrimitives (GoString ascii)
open Gocoon.JsonText
open Gocoon.JsonPrinting
open Gocoon.GoStrings
open Gocoon.ToolTranslation
open Gocoon.ToolCallHistory
open Gocoon.TaggedText
open Gocoon.CallRecovery

set_option autoImplicit false

/-! ## Objects that leave nothing -/

section Sealing

/-- Every close tag that the search meets is followed by an open tag at once. -/
inductive Sealed : GoString → Prop where
  | whole {text : GoString} (absent : ¬ toolCallCloseTag <:+: text) : Sealed text
  | resumes {front rest : GoString} (absent : ¬ toolCallCloseTag <:+: front)
      (later : Sealed rest) :
      Sealed (front ++ (toolCallCloseTag ++ (toolCallOpenTag ++ rest)))

theorem Sealed.scanned {text : GoString} (isSealed : Sealed text) :
    ∃ tails, Scanned text tails [] := by
  induction isSealed with
  | whole absent => exact ⟨[], .whole absent⟩
  | resumes absent later induction =>
      obtain ⟨tails, scanned⟩ := induction
      have unopened : ¬ toolCallOpenTag <:+: [] := by decide
      exact ⟨_, .resumes absent unopened scanned⟩

theorem sealed_of_scanned {text leak : GoString} {tails : List GoString}
    (scanned : Scanned text tails leak) (empty : leak = []) : Sealed text := by
  induction scanned with
  | whole absent => exact .whole absent
  | leaves =>
      have nonempty : toolCallCloseTag ≠ [] := by decide
      exact absurd (List.append_eq_nil_iff.mp empty).2 nonempty
  | resumes absent unopened later induction =>
      obtain ⟨rfl, nothing⟩ := List.append_eq_nil_iff.mp empty
      exact .resumes absent (induction nothing)

theorem Sealed.behind {before text : GoString} (plain : angle ∉ before) (isSealed : Sealed text) :
    Sealed (before ++ text) := by
  have passed : Passes toolCallCloseTag before := by
    rw [close_tag_angle]
    exact passes_foreign plain
  cases isSealed with
  | whole absent => exact .whole (absent_append passed absent)
  | resumes absent later =>
      rw [← List.append_assoc]
      exact .resumes (absent_append passed absent) later

theorem Sealed.before {text after : GoString} (plain : angle ∉ after) (isSealed : Sealed text)
    {inner : GoString} (braced : text = inner ++ [closeBrace]) : Sealed (text ++ after) := by
  induction isSealed generalizing inner with
  | whole absent =>
      have absentAfter : ¬ toolCallCloseTag <:+: after := by
        intro occurs
        exact plain (occurs.subset (by decide))
      exact .whole (absent_append (braced_passes (by decide) absent braced) absentAfter)
  | resumes absent later induction =>
      rename_i front rest
      have ending : (front ++ toolCallCloseTag) ++ (toolCallOpenTag ++ rest) =
          inner ++ [closeBrace] := by simpa using braced
      obtain ⟨_, restBraced⟩ := braced_tail (by decide) ending
      rw [List.append_assoc, List.append_assoc, List.append_assoc]
      exact .resumes absent (induction restBraced)

end Sealing

/-! ## Answers -/

section Answers

theorem visible_answer {blocks : List CallBlock} {last : GoString} (ending : angle ∉ last)
    (untagged : ∀ block ∈ blocks, ¬ thinkOpenTag <:+: block.json) {leaks : List GoString}
    (scanned : List.Forall₂ (fun block leak => ∃ tails, Scanned block.written.2 tails leak)
      blocks leaks) :
    stripThinkAndToolCalls (answer blocks last) =
      trimSpace (((blocks.zip leaks).flatMap fun part => part.1.separator ++ part.2) ++ last) := by
  have clean : stripThinkBlocks (answer blocks last) =
      weave last (blocks.map CallBlock.written) := strip_think_answer ending untagged
  have plain : ∀ block ∈ blocks.map CallBlock.written, angle ∉ block.1 := by
    rw [List.forall_mem_map]
    exact fun block _ => block.plainSeparator
  have stripped := strip_weave ending plain (List.forall₂_map_left_iff.mpr scanned)
  rw [withoutSpans] at stripped
  rw [stripThinkAndToolCalls]
  simp only [clean, stripped]
  rw [List.zip_map_left, List.flatMap_map]
  rfl

def solid : Byte := 0x78

theorem solid_plain : angle ∉ [solid] := by decide

theorem nothing_plain : angle ∉ ([] : GoString) ∧ openBrace ∉ ([] : GoString) :=
  ⟨List.not_mem_nil, List.not_mem_nil⟩

theorem trim_solid (inner : GoString) :
    trimSpace (solid :: inner ++ [solid]) = solid :: inner ++ [solid] :=
  trim_space_between (by decide) (by decide) (by decide) (by decide) inner

def solidBlock (json name arguments : GoString) (isCall : IsCall json name arguments) :
    CallBlock where
  separator := [solid]
  before := []
  json := json
  after := []
  name := name
  arguments := arguments
  plainSeparator := solid_plain
  plainBefore := nothing_plain
  plainAfter := List.not_mem_nil
  isCall := isCall

variable {blocks : List CallBlock} {leaks : List GoString}

theorem woven_length (size : blocks.length = leaks.length) :
    ((blocks.zip leaks).flatMap fun part => part.1.separator ++ part.2).length =
      (blocks.flatMap CallBlock.separator).length + leaks.flatten.length := by
  induction blocks generalizing leaks with
  | nil =>
      rw [List.length_nil, eq_comm, List.length_eq_zero_iff] at size
      simp [size]
  | cons block blocks induction =>
      cases leaks with
      | nil => cases size
      | cons leak leaks =>
          have rest := induction (Nat.succ.inj size)
          simp only [List.zip_cons_cons, List.flatMap_cons, List.flatten_cons,
            List.length_append] at rest ⊢
          omega

theorem woven_empty (blocks : List CallBlock) :
    ((blocks.zip (blocks.map fun _ => [])).flatMap fun part => part.1.separator ++ part.2) =
      blocks.flatMap CallBlock.separator := by
  induction blocks with
  | nil => rfl
  | cons block blocks induction =>
      rw [List.map_cons, List.zip_cons_cons, List.flatMap_cons, induction, List.append_nil,
        List.flatMap_cons]

theorem sealed_block {block : CallBlock} (isSealed : Sealed block.json) :
    ∃ tails, Scanned block.written.2 tails [] := by
  obtain ⟨inner, braced⟩ := block.isCall.braced
  rw [← List.cons_append] at braced
  exact ((isSealed.before block.plainAfter braced).behind block.plainBefore.1).scanned

theorem solid_blocks {jsons : List GoString}
    (objects : ∀ json ∈ jsons, ∃ name arguments, IsCall json name arguments) :
    ∃ blocks : List CallBlock, blocks.map CallBlock.json = jsons ∧
      ∀ block ∈ blocks, block.separator = [solid] ∧ block.written.2 = block.json := by
  induction jsons with
  | nil => exact ⟨[], rfl, by simp⟩
  | cons json jsons induction =>
      obtain ⟨⟨name, arguments, isCall⟩, others⟩ := List.forall_mem_cons.mp objects
      obtain ⟨blocks, rfl, each⟩ := induction others
      refine ⟨solidBlock json name arguments isCall :: blocks, rfl, ?_⟩
      rw [List.forall_mem_cons]
      exact ⟨⟨rfl, List.append_nil json⟩, each⟩

theorem solid_leaks (solids : ∀ block ∈ blocks, block.separator = [solid])
    (size : blocks.length = leaks.length)
    (same : trimSpace (((blocks.zip leaks).flatMap fun part => part.1.separator ++ part.2) ++
      [solid]) = trimSpace (blocks.flatMap CallBlock.separator ++ [solid])) :
    ∀ leak ∈ leaks, leak = [] := by
  cases blocks with
  | nil =>
      rw [List.length_nil, eq_comm, List.length_eq_zero_iff] at size
      simp [size]
  | cons block blocks =>
      cases leaks with
      | nil => cases size
      | cons leak leaks =>
          have first : block.separator = [solid] := solids block (by simp)
          have woven := woven_length size
          rw [List.zip_cons_cons, List.flatMap_cons, List.flatMap_cons, first,
            List.singleton_append, List.cons_append, List.singleton_append] at same woven
          rw [trim_solid, trim_solid] at same
          have total := congrArg List.length same
          rw [List.length_append, List.length_append, woven] at total
          have nothing : (leak :: leaks).flatten = [] := by
            rw [← List.length_eq_zero_iff]
            omega
          exact List.flatten_eq_nil_iff.mp nothing

end Answers

/-- For every sequence of call objects without think tags: whatever the separators and the
padding are, the visible text is the separators without surrounding white space, if and only if
every close tag that the search meets inside an object is followed by an open tag at once. -/
theorem visible_text_iff (jsons : List GoString)
    (objects : ∀ json ∈ jsons, ∃ name arguments, IsCall json name arguments)
    (untagged : ∀ json ∈ jsons, ¬ thinkOpenTag <:+: json) :
    (∀ (blocks : List CallBlock) (last : GoString), blocks.map CallBlock.json = jsons →
        angle ∉ last → stripThinkAndToolCalls (answer blocks last) =
          trimSpace (blocks.flatMap CallBlock.separator ++ last)) ↔
      ∀ json ∈ jsons, Sealed json := by
  constructor
  · intro visible json inside
    obtain ⟨blocks, rfl, each⟩ := solid_blocks objects
    rw [List.forall_mem_map] at untagged
    choose tails leak scanned using fun block : CallBlock => scanned_exists block.written.2
    have all : List.Forall₂
        (fun block leak => ∃ tails, Scanned (CallBlock.written block).2 tails leak)
        blocks (blocks.map leak) := by
      rw [List.forall₂_map_right_iff, List.forall₂_same]
      exact fun block _ => ⟨tails block, scanned block⟩
    have seen := visible blocks [solid] rfl solid_plain
    rw [visible_answer solid_plain untagged all] at seen
    have nothing := solid_leaks (fun block listed => (each block listed).1) (by simp) seen
    obtain ⟨block, listed, rfl⟩ := List.mem_map.mp inside
    have empty : leak block = [] := nothing _ (List.mem_map_of_mem listed)
    rw [← (each block listed).2]
    exact sealed_of_scanned (scanned block) empty
  · intro sealings blocks last same ending
    subst same
    rw [List.forall_mem_map] at sealings untagged
    have scanned : List.Forall₂
        (fun block leak => ∃ tails, Scanned (CallBlock.written block).2 tails leak)
        blocks (blocks.map fun _ => []) := by
      rw [List.forall₂_map_right_iff, List.forall₂_same]
      exact fun block inside => sealed_block (sealings block inside)
    rw [visible_answer ending untagged scanned, woven_empty]

/-! ## Close tags in strings -/

section Tags

/-- An open tag that follows at once keeps the text clean. -/
theorem tag_pair_invisible :
    stripThinkAndToolCalls (answer [stringBlock tagPair tag_pair_call] (ascii " done")) =
      ascii "done" := by
  have split : stringCall tagPair =
      ascii "\x7b\"name\":\"f\",\"arguments\":\x7b\"x\":\"" ++
        (toolCallCloseTag ++ (toolCallOpenTag ++ ascii "\x7b\"\x7d\x7d")) := by decide
  have isSealed : Sealed (stringCall tagPair) := by
    rw [split]
    exact .resumes (by decide +kernel) (.whole (by decide +kernel))
  have visible := (visible_text_iff [stringCall tagPair]
    (by simpa using ⟨_, _, tag_pair_call⟩) (by decide +kernel)).mpr (by simpa using isSealed)
    [stringBlock tagPair tag_pair_call] (ascii " done") rfl (by decide)
  rw [visible]
  decide +kernel

/-- The call is extracted, and the end of its object is left in the visible text. -/
theorem close_tag_leaks :
    stripThinkAndToolCalls (answer [stringBlock toolCallCloseTag close_tag_call] []) =
        ascii "\"\x7d\x7d</tool_call>" ∧
      stripThinkAndToolCalls (answer [stringBlock toolCallCloseTag close_tag_call] []) ≠
        trimSpace ([stringBlock toolCallCloseTag close_tag_call].flatMap CallBlock.separator) ∧
      (parseToolCallsFromText (fun _ => ascii "tc")
        (answer [stringBlock toolCallCloseTag close_tag_call] [])).map
          (fun call => (call.name, call.arguments)) =
        [(ascii "f", stringArguments toolCallCloseTag)] := by
  refine ⟨by decide +kernel, by decide +kernel, by decide +kernel⟩

end Tags

end Gocoon.VisibleText
