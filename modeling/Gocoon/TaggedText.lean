import Gocoon.ToolCallHistory

/-!
# Texts with blocks of calls

A model's answer is text with blocks between call tags in it. Both loops over it search for
tags as plain substrings: they meet an open tag, go on to the first close tag behind it, and
start again from there. What they do inside a block depends only on the tags in it, so a block
is described once by the places where the search resumes in it (`Scanned`), and both loops are
then followed along that description.
-/

namespace Gocoon.TaggedText

open Gocoon.TlPrimitives (GoString ascii)
open Gocoon.JsonText
open Gocoon.JsonPrinting
open Gocoon.GoStrings
open Gocoon.ToolTranslation
open Gocoon.ToolCallHistory

set_option autoImplicit false

/-! ## The tags -/

def openName : GoString := ascii "tool_call>"
def closeName : GoString := ascii "/tool_call>"
def thinkName : GoString := ascii "think>"
def thinkCloseName : GoString := ascii "/think>"

theorem think_close_angle : thinkCloseTag = angle :: thinkCloseName := by decide

theorem names_single : angle ∉ openName ∧ angle ∉ closeName ∧ angle ∉ thinkName ∧
    angle ∉ thinkCloseName := by decide

theorem open_passes_close : Passes toolCallOpenTag toolCallCloseTag := by
  rw [open_tag_angle, close_tag_angle]
  exact passes_tag names_single.2.1 1 (by decide) (by decide) (by decide)

theorem close_passes_open : Passes toolCallCloseTag toolCallOpenTag := by
  rw [open_tag_angle, close_tag_angle]
  exact passes_tag names_single.1 1 (by decide) (by decide) (by decide)

theorem think_passes_open : Passes thinkOpenTag toolCallOpenTag := by
  rw [think_angle, open_tag_angle]
  exact passes_tag names_single.1 2 (by decide) (by decide) (by decide)

theorem think_passes_close : Passes thinkOpenTag toolCallCloseTag := by
  rw [think_angle, close_tag_angle]
  exact passes_tag names_single.2.1 1 (by decide) (by decide) (by decide)

theorem think_close_passes_open : Passes thinkCloseTag thinkOpenTag := by
  rw [think_angle, think_close_angle]
  exact passes_tag names_single.2.2.1 1 (by decide) (by decide) (by decide)

/-- A tag starts with the only angle bracket in it. -/
def IsTag (tag : GoString) : Prop := ∃ name, tag = angle :: name ∧ angle ∉ name

theorem IsTag.first {tag front : GoString} (isTag : IsTag tag) (absent : ¬ tag <:+: front)
    (rest : GoString) : index tag (front ++ (tag ++ rest)) = some front.length := by
  obtain ⟨name, rfl, single⟩ := isTag
  exact index_first single absent rest

theorem IsTag.split {tag text : GoString} (isTag : IsTag tag) {start : Nat}
    (found : index tag text = some start) :
    ∃ front rest, text = front ++ (tag ++ rest) ∧ ¬ tag <:+: front := by
  obtain ⟨name, rfl, -⟩ := isTag
  obtain ⟨front, rest, whole, -, absent⟩ := index_split found
  exact ⟨front, rest, whole, absent⟩

/-- An open tag and the close tag for it, whose search runs over the open tag. -/
structure TagPair (openTag closeTag : GoString) : Prop where
  opening : IsTag openTag
  closing : IsTag closeTag
  passes : Passes closeTag openTag

theorem call_tags : TagPair toolCallOpenTag toolCallCloseTag where
  opening := ⟨openName, open_tag_angle, names_single.1⟩
  closing := ⟨closeName, close_tag_angle, names_single.2.1⟩
  passes := close_passes_open

theorem think_tags : TagPair thinkOpenTag thinkCloseTag where
  opening := ⟨thinkName, think_angle, names_single.2.2.1⟩
  closing := ⟨thinkCloseName, think_close_angle, names_single.2.2.2⟩
  passes := think_close_passes_open

section Pairs

variable {openTag closeTag : GoString} (tags : TagPair openTag closeTag)
include tags

theorem TagPair.close_length : 0 < closeTag.length := by
  obtain ⟨name, rfl, -⟩ := tags.closing
  exact Nat.succ_pos _

theorem TagPair.span_closes {inner : GoString} (absent : ¬ closeTag <:+: inner)
    (rest : GoString) : index closeTag (openTag ++ (inner ++ (closeTag ++ rest))) =
      some (openTag.length + inner.length) := by
  rw [tags.passes, tags.closing.first absent, Option.map_some, Nat.add_comm]

theorem TagPair.passed_to_open {gap : GoString} (absent : ¬ openTag <:+: gap) (rest : GoString) :
    index openTag (gap ++ (openTag ++ rest)) =
      (index openTag (openTag ++ rest)).map (· + gap.length) := by
  rw [tags.opening.first absent, index_start, Option.map_some, Nat.zero_add]

end Pairs

/-! ## Loops with fuel -/

/-- A loop that stops at size zero and goes on with something smaller never runs out of a fuel
that is at least the size. -/
theorem loop_fuel {State Result : Type} (run : Nat → State → Result) (size : State → Nat)
    (stops : ∀ fuel state, size state = 0 → run fuel state = run 0 state)
    (step : ∀ fuel more state, (∀ next, size next < size state → run fuel next = run more next) →
      run (fuel + 1) state = run (more + 1) state)
    {fuel more : Nat} (state : State) (enough : size state ≤ fuel) (plenty : size state ≤ more) :
    run fuel state = run more state := by
  induction fuel generalizing more state with
  | zero => exact (stops more state (Nat.le_zero.mp enough)).symm
  | succ fuel induction =>
      cases more with
      | zero => exact stops (fuel + 1) state (Nat.le_zero.mp plenty)
      | succ more =>
          apply step
          intro next smaller
          apply induction
          · omega
          · omega

/-! ## Removing spans -/

section Spans

variable {openTag closeTag : GoString}

/-- The text without its spans, with as much fuel as it can need. -/
def withoutSpans (openTag closeTag text : GoString) : GoString :=
  stripSpans openTag closeTag text.length text

/-- Every span that is removed makes the text shorter, so the fuel never runs out. -/
theorem strip_spans_fuel (closing : 0 < closeTag.length) {fuel more : Nat} {text : GoString}
    (enough : text.length ≤ fuel) (plenty : text.length ≤ more) :
    stripSpans openTag closeTag fuel text = stripSpans openTag closeTag more text := by
  apply loop_fuel (stripSpans openTag closeTag) List.length _ _ text enough plenty
  · intro fuel text empty
    rw [List.length_eq_zero_iff.mp empty, strip_spans_nil closing, strip_spans_nil closing]
  · intro fuel more text shorter
    rw [stripSpans, stripSpans]
    split
    · rfl
    · rename_i start opened
      congr 1
      split
      · rfl
      · rename_i closeRel closed
        have bound := index_length closed
        rw [List.length_drop] at bound
        apply shorter
        rw [List.length_drop]
        omega

theorem without_spans_eq (closing : 0 < closeTag.length) (text : GoString) :
    withoutSpans openTag closeTag text =
      match index openTag text with
      | none => text
      | some start =>
          text.take start ++
            match index closeTag (text.drop start) with
            | none => []
            | some closeRel =>
                withoutSpans openTag closeTag
                  (text.drop (start + closeRel + closeTag.length)) := by
  have more : withoutSpans openTag closeTag text =
      stripSpans openTag closeTag (text.length + 1) text :=
    strip_spans_fuel closing (Nat.le_refl _) (Nat.le_succ _)
  rw [more, stripSpans]
  rcases index openTag text with _ | start
  · rfl
  · dsimp only
    rcases index closeTag (text.drop start) with _ | closeRel
    · rfl
    · congr 1
      exact strip_spans_fuel closing (by rw [List.length_drop]; omega) (Nat.le_refl _)

theorem without_spans_pass (closing : 0 < closeTag.length) {front rest : GoString}
    (passed : index openTag (front ++ rest) = (index openTag rest).map (· + front.length)) :
    withoutSpans openTag closeTag (front ++ rest) =
      front ++ withoutSpans openTag closeTag rest := by
  have shift : ∀ count, (front ++ rest).drop (front.length + count) = rest.drop count := by
    intro count
    rw [← List.drop_drop, List.drop_left]
  rw [without_spans_eq closing, without_spans_eq closing, passed]
  rcases index openTag rest with _ | start
  · rfl
  · have whole : (front ++ rest).take (start + front.length) = front ++ rest.take start := by
      rw [Nat.add_comm, List.take_length_add_append]
    simp only [Option.map_some]
    rw [whole, Nat.add_comm start, shift, List.append_assoc]
    rcases index closeTag (rest.drop start) with _ | closeRel
    · rfl
    · dsimp only
      rw [Nat.add_assoc, Nat.add_assoc, shift, Nat.add_assoc]

theorem without_spans_span (closing : 0 < closeTag.length) {inner rest : GoString}
    (closes : index closeTag (openTag ++ (inner ++ (closeTag ++ rest))) =
      some (openTag.length + inner.length)) :
    withoutSpans openTag closeTag (openTag ++ (inner ++ (closeTag ++ rest))) =
      withoutSpans openTag closeTag rest := by
  have behind : (openTag ++ (inner ++ (closeTag ++ rest))).drop
      (0 + (openTag.length + inner.length) + closeTag.length) = rest := by
    rw [← List.append_assoc, ← List.append_assoc, List.drop_left']
    simp only [List.length_append]
    omega
  rw [without_spans_eq closing, index_start]
  simp only [List.take_zero, List.drop_zero, List.nil_append, closes, behind]

theorem without_spans_clean {text : GoString} (absent : ¬ openTag <:+: text) :
    withoutSpans openTag closeTag text = text :=
  strip_spans_absent ((index_eq_none_iff _ _).mpr absent) _

variable (tags : TagPair openTag closeTag)
include tags

theorem TagPair.strip_span {front inner : GoString} (absent : ¬ openTag <:+: front)
    (unclosed : ¬ closeTag <:+: inner) (rest : GoString) :
    withoutSpans openTag closeTag (front ++ (openTag ++ (inner ++ (closeTag ++ rest)))) =
      front ++ withoutSpans openTag closeTag rest := by
  rw [without_spans_pass tags.close_length (tags.passed_to_open absent _),
    without_spans_span tags.close_length (tags.span_closes unclosed rest)]

theorem TagPair.strip_unclosed {front inner : GoString} (absent : ¬ openTag <:+: front)
    (unclosed : ¬ closeTag <:+: inner) :
    withoutSpans openTag closeTag (front ++ (openTag ++ inner)) = front := by
  have never : index closeTag (openTag ++ inner) = none := by
    rw [tags.passes, (index_eq_none_iff _ _).mpr unclosed, Option.map_none]
  rw [without_spans_eq tags.close_length, tags.opening.first absent]
  simp only [List.take_left, List.drop_left, never, List.append_nil]

end Spans

/-! ## Collecting calls -/

section Collecting

variable (newID : Nat → GoString)

def collect (calls : List ExtractedCall) (text : GoString) : List ExtractedCall :=
  collectCalls newID text.length calls text

def callBehind (content : GoString) : Option (GoString × GoString) :=
  (index toolCallCloseTag content).bind (callInBlock content)

theorem collect_calls_succ (fuel : Nat) (calls : List ExtractedCall) (text : GoString) :
    collectCalls newID (fuel + 1) calls text =
      match index toolCallOpenTag text with
      | none => calls
      | some start =>
          let content := text.drop (start + toolCallOpenTag.length)
          match index toolCallCloseTag content with
          | none => calls
          | some closeIdx =>
              collectCalls newID fuel (addFound newID calls (callInBlock content closeIdx))
                (content.drop (closeIdx + toolCallCloseTag.length)) := by
  rw [collectCalls]
  rcases index toolCallOpenTag text with _ | start
  · rfl
  · dsimp only
    rcases index toolCallCloseTag (text.drop (start + toolCallOpenTag.length)) with _ | closeIdx
    · rfl
    · dsimp only
      cases callInBlock (text.drop (start + toolCallOpenTag.length)) closeIdx <;> rfl

theorem collect_calls_fuel {fuel more : Nat} {text : GoString} (enough : text.length ≤ fuel)
    (plenty : text.length ≤ more) (calls : List ExtractedCall) :
    collectCalls newID fuel calls text = collectCalls newID more calls text := by
  have closing : 0 < toolCallCloseTag.length := by decide
  apply loop_fuel (fun fuel (state : List ExtractedCall × GoString) =>
    collectCalls newID fuel state.1 state.2) (fun state => state.2.length) _ _ (calls, text)
      enough plenty
  · intro fuel state empty
    rw [List.length_eq_zero_iff.mp empty, collect_calls_nil, collect_calls_nil]
  · intro fuel more state shorter
    rw [collect_calls_succ, collect_calls_succ]
    split
    · rfl
    · dsimp only
      split
      · rfl
      · rename_i start opened closeIdx closed
        have bound := index_length closed
        rw [List.length_drop] at bound
        apply shorter (addFound newID state.1 _, _)
        rw [List.length_drop, List.length_drop]
        omega

variable {newID}

theorem collect_none {text : GoString} (absent : index toolCallOpenTag text = none)
    (calls : List ExtractedCall) : collect newID calls text = calls := by
  rw [collect, collect_calls_fuel newID (Nat.le_refl _) (Nat.le_succ _), collect_calls_succ,
    absent]

theorem collect_pass {front rest : GoString}
    (passed : index toolCallOpenTag (front ++ rest) =
      (index toolCallOpenTag rest).map (· + front.length)) (calls : List ExtractedCall) :
    collect newID calls (front ++ rest) = collect newID calls rest := by
  have fits : rest.length ≤ (front ++ rest).length := by simp
  rw [collect, collect, collect_calls_fuel newID (Nat.le_refl _) (Nat.le_succ _),
    collect_calls_fuel newID (Nat.le_refl rest.length) (Nat.le_succ_of_le fits),
    collect_calls_succ, collect_calls_succ, passed]
  rcases index toolCallOpenTag rest with _ | start
  · rfl
  · have shift : (front ++ rest).drop (start + front.length + toolCallOpenTag.length) =
        rest.drop (start + toolCallOpenTag.length) := by
      rw [Nat.add_right_comm, Nat.add_comm _ front.length, ← List.drop_drop, List.drop_left]
    simp only [Option.map_some, shift]

theorem collect_unclosed {inner : GoString} (endless : ¬ toolCallCloseTag <:+: inner)
    (calls : List ExtractedCall) : collect newID calls (toolCallOpenTag ++ inner) = calls := by
  rw [collect, collect_calls_fuel newID (Nat.le_refl _) (Nat.le_succ _), collect_calls_succ,
    index_start]
  simp only [Nat.zero_add, List.drop_left, (index_eq_none_iff _ _).mpr endless]

theorem collect_pair {inner : GoString} (first : ¬ toolCallCloseTag <:+: inner)
    (rest : GoString) (calls : List ExtractedCall) :
    collect newID calls (toolCallOpenTag ++ (inner ++ (toolCallCloseTag ++ rest))) =
      collect newID (addFound newID calls (callBehind (inner ++ (toolCallCloseTag ++ rest))))
        rest := by
  have closes := call_tags.closing.first first rest
  have content : (toolCallOpenTag ++ (inner ++ (toolCallCloseTag ++ rest))).drop
      (0 + toolCallOpenTag.length) = inner ++ (toolCallCloseTag ++ rest) := by
    rw [Nat.zero_add, List.drop_left]
  have behind : (inner ++ (toolCallCloseTag ++ rest)).drop
      (inner.length + toolCallCloseTag.length) = rest := by
    rw [← List.append_assoc, ← List.length_append, List.drop_left]
  have fits : rest.length ≤ (toolCallOpenTag ++ (inner ++ (toolCallCloseTag ++ rest))).length := by
    simp only [List.length_append]
    omega
  rw [collect, collect_calls_fuel newID (Nat.le_refl _) (Nat.le_succ _), collect_calls_succ,
    index_start]
  simp only [content, closes, behind, callBehind, Option.bind_some]
  exact collect_calls_fuel newID fits (Nat.le_refl _) _

end Collecting

/-! ## Think spans -/

section Thinking

theorem strip_think_pass {front : GoString} (passes : Passes thinkOpenTag front)
    (rest : GoString) : stripThinkBlocks (front ++ rest) = front ++ stripThinkBlocks rest :=
  without_spans_pass (by decide) (passes rest)

theorem strip_think_clean {text : GoString} (absent : ¬ thinkOpenTag <:+: text) :
    stripThinkBlocks text = text := without_spans_clean absent

theorem braced_tail {tag front rest inner : GoString} (tagged : tag.getLast? = some 0x3E)
    (whole : front ++ (tag ++ rest) = inner ++ [closeBrace]) :
    ∃ tail, rest = tail ++ [closeBrace] := by
  have ends := congrArg List.getLast? whole
  rcases List.eq_nil_or_concat' rest with rfl | ⟨tail, last, rfl⟩
  · rw [List.append_nil, List.getLast?_concat, List.getLast?_append, tagged, Option.some_or] at ends
    exact absurd ends (by decide)
  · rw [← List.append_assoc, ← List.append_assoc, List.getLast?_concat,
      List.getLast?_concat] at ends
    cases ends
    exact ⟨tail, rfl⟩

theorem plain_passes {text : GoString} (plain : angle ∉ text) : Passes thinkOpenTag text := by
  rw [think_angle]
  exact passes_foreign plain

theorem braced_passes {tag text inner : GoString} (foreign : closeBrace ∉ tag)
    (absent : ¬ tag <:+: text) (braced : text = inner ++ [closeBrace]) : Passes tag text := by
  subst braced
  apply passes_closed foreign
  intro occurs
  exact absent (occurs.trans (List.prefix_append _ _).isInfix)

theorem absent_append {tag front rest : GoString} (passes : Passes tag front)
    (absent : ¬ tag <:+: rest) : ¬ tag <:+: front ++ rest := by
  rw [← index_eq_none_iff] at absent ⊢
  rw [passes, absent, Option.map_none]

theorem strip_think_block {separator before json after inner : GoString}
    (plainSeparator : angle ∉ separator) (plainBefore : angle ∉ before)
    (plainAfter : angle ∉ after) (untagged : ¬ thinkOpenTag <:+: json)
    (braced : json = inner ++ [closeBrace]) (rest : GoString) :
    stripThinkBlocks (separator ++ (toolCallOpenTag ++
        ((before ++ (json ++ after)) ++ (toolCallCloseTag ++ rest)))) =
      separator ++ (toolCallOpenTag ++ ((before ++ (json ++ after)) ++
        (toolCallCloseTag ++ stripThinkBlocks rest))) := by
  have object : Passes thinkOpenTag json := braced_passes (by decide) untagged braced
  rw [strip_think_pass (plain_passes plainSeparator), strip_think_pass think_passes_open,
    List.append_assoc, strip_think_pass (plain_passes plainBefore), List.append_assoc,
    strip_think_pass object, strip_think_pass (plain_passes plainAfter),
    strip_think_pass think_passes_close]
  simp only [List.append_assoc]

end Thinking

/-! ## Inside a block -/

section Scanning

/-- How the search goes through the text between an open tag and the close tag that was written
for it: the texts behind the open tags that it meets in there, up to that close tag, and what
it passes over between two tag pairs. -/
inductive Scanned : GoString → List GoString → GoString → Prop where
  | whole {interior : GoString} (absent : ¬ toolCallCloseTag <:+: interior) :
      Scanned interior [] []
  | leaves {front rest : GoString} (absent : ¬ toolCallCloseTag <:+: front)
      (unopened : ¬ toolCallOpenTag <:+: rest) :
      Scanned (front ++ (toolCallCloseTag ++ rest)) [] (rest ++ toolCallCloseTag)
  | resumes {front gap rest : GoString} {tails : List GoString} {leak : GoString}
      (absent : ¬ toolCallCloseTag <:+: front) (unopened : ¬ toolCallOpenTag <:+: gap)
      (later : Scanned rest tails leak) :
      Scanned (front ++ (toolCallCloseTag ++ (gap ++ (toolCallOpenTag ++ rest))))
        (rest :: tails) (gap ++ leak)

theorem scanned_exists (interior : GoString) : ∃ tails leak, Scanned interior tails leak := by
  induction size : interior.length using Nat.strong_induction_on generalizing interior with
  | _ length induction =>
      rcases closed : index toolCallCloseTag interior with _ | close
      · exact ⟨[], [], .whole ((index_eq_none_iff _ _).mp closed)⟩
      · obtain ⟨front, rest, rfl, absent⟩ := call_tags.closing.split closed
        rcases opened : index toolCallOpenTag rest with _ | start
        · exact ⟨[], _, .leaves absent ((index_eq_none_iff _ _).mp opened)⟩
        · obtain ⟨gap, tail, rfl, unopened⟩ := call_tags.opening.split opened
          have shorter : tail.length < length := by
            have nonempty := call_tags.close_length
            rw [← size]
            simp only [List.length_append]
            omega
          obtain ⟨tails, leak, later⟩ := induction tail.length shorter tail rfl
          exact ⟨tail :: tails, gap ++ leak, .resumes absent unopened later⟩

theorem passed_with_close {gap : GoString} (absent : ¬ toolCallOpenTag <:+: gap)
    (rest : GoString) :
    index toolCallOpenTag (gap ++ toolCallCloseTag ++ rest) =
      (index toolCallOpenTag rest).map (· + (gap ++ toolCallCloseTag).length) := by
  have beyond : index toolCallOpenTag (gap ++ (toolCallCloseTag ++ rest)) =
      (index toolCallOpenTag (toolCallCloseTag ++ rest)).map (· + gap.length) := by
    rw [open_tag_angle] at absent ⊢
    rw [close_tag_angle]
    exact index_beyond names_single.1 absent _
  rw [List.append_assoc, beyond, open_passes_close, Option.map_map, List.length_append]
  congr 1
  funext start
  simp only [Function.comp_apply]
  omega

/-- What is left of a block is what the search passes over between two tag pairs in it. -/
theorem strip_scanned {interior leak : GoString} {tails : List GoString}
    (scanned : Scanned interior tails leak) (rest : GoString) :
    withoutSpans toolCallOpenTag toolCallCloseTag
        (toolCallOpenTag ++ (interior ++ (toolCallCloseTag ++ rest))) =
      leak ++ withoutSpans toolCallOpenTag toolCallCloseTag rest := by
  have closing : 0 < toolCallCloseTag.length := by decide
  induction scanned with
  | whole absent => exact without_spans_span closing (call_tags.span_closes absent rest)
  | leaves absent unopened =>
      rename_i front tail
      rw [List.append_assoc, List.append_assoc,
        without_spans_span closing (call_tags.span_closes absent _), ← List.append_assoc,
        without_spans_pass closing (passed_with_close unopened rest)]
  | resumes absent unopened later induction =>
      rename_i front gap tail tails leak
      rw [List.append_assoc, List.append_assoc, List.append_assoc, List.append_assoc,
        without_spans_span closing (call_tags.span_closes absent _),
        without_spans_pass closing (call_tags.passed_to_open unopened _), induction,
        List.append_assoc]

/-- The calls of a block are those of its tag pair and of the pairs that the search meets
inside it. -/
theorem collect_scanned {newID : Nat → GoString} {interior leak : GoString}
    {tails : List GoString} (scanned : Scanned interior tails leak) (rest : GoString)
    (calls : List ExtractedCall) :
    collect newID calls (toolCallOpenTag ++ (interior ++ (toolCallCloseTag ++ rest))) =
      collect newID
        ((interior :: tails).foldl (fun calls tail =>
          addFound newID calls (callBehind (tail ++ (toolCallCloseTag ++ rest)))) calls)
        rest := by
  induction scanned generalizing calls with
  | whole absent => exact collect_pair absent rest calls
  | leaves absent unopened =>
      rename_i front tail
      rw [List.append_assoc, List.append_assoc, collect_pair absent,
        ← List.append_assoc tail, collect_pass (passed_with_close unopened rest)]
      simp only [List.foldl_cons, List.foldl_nil, List.append_assoc]
  | resumes absent unopened later induction =>
      rename_i front gap tail tails leak
      rw [List.append_assoc, List.append_assoc, List.append_assoc, List.append_assoc,
        collect_pair absent,
        collect_pass (call_tags.passed_to_open unopened _), induction]
      simp only [List.foldl_cons, List.append_assoc]

end Scanning

/-! ## Blocks between separators -/

section Blocks

/-- Separators and the interiors of the blocks behind them, and a last separator. -/
def weave (last : GoString) : List (GoString × GoString) → GoString
  | [] => last
  | (separator, interior) :: rest =>
      separator ++ (toolCallOpenTag ++ (interior ++ (toolCallCloseTag ++ weave last rest)))

theorem separator_passed {separator : GoString} (plain : angle ∉ separator) :
    Passes toolCallOpenTag separator := by
  rw [open_tag_angle]
  exact passes_foreign plain

theorem plain_unopened {text : GoString} (plain : angle ∉ text) :
    index toolCallOpenTag text = none := by
  rw [open_tag_angle, index_eq_none_iff]
  intro occurs
  exact plain (occurs.subset List.mem_cons_self)

theorem strip_weave {last : GoString} (ending : angle ∉ last)
    {blocks : List (GoString × GoString)} (plain : ∀ block ∈ blocks, angle ∉ block.1)
    {leaks : List GoString}
    (scanned : List.Forall₂ (fun block leak => ∃ tails, Scanned block.2 tails leak) blocks leaks) :
    withoutSpans toolCallOpenTag toolCallCloseTag (weave last blocks) =
      ((blocks.zip leaks).flatMap fun part => part.1.1 ++ part.2) ++ last := by
  have closing : 0 < toolCallCloseTag.length := by decide
  induction scanned with
  | nil =>
      rw [weave, withoutSpans, strip_spans_absent (plain_unopened ending)]
      rfl
  | cons here others induction =>
      rename_i block leak blocks leaks
      obtain ⟨separator, interior⟩ := block
      obtain ⟨plainHere, plainLater⟩ := List.forall_mem_cons.mp plain
      obtain ⟨tails, scanned⟩ := here
      rw [weave, without_spans_pass closing (separator_passed plainHere _),
        strip_scanned scanned, induction plainLater]
      simp

end Blocks

end Gocoon.TaggedText
