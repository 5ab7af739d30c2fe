import Gocoon.ExactNumbers
import Gocoon.ForwardedRequest
import Gocoon.ToolCallHistory

/-!
# What a rewritten body keeps

Setting one key of a body decodes and encodes all the others, and so does the translation of
a request with tools, which also decodes and encodes the arguments of earlier calls. Every
number passes through a `float64` on the way. A rewritten body therefore says the same as the
original exactly when no number is out of range and the integers that are to be kept are the
shortest ones with their floats.
-/

namespace Gocoon.BodyFidelity

open Gocoon.LittleEndianBytes
open Gocoon.GoProgram
open Gocoon.TlPrimitives (GoString ascii)
open Gocoon.Utf8Text
open Gocoon.JsonText
open Gocoon.JsonPrinting
open Gocoon.JsonValues
open Gocoon.GoStrings
open Gocoon.BinaryRounding
open Gocoon.ShortestDecimals
open Gocoon.DecimalLiterals
open Gocoon.JsonFloats
open Gocoon.ExactNumbers
open Gocoon.ToolTranslation
open Gocoon.ToolCallHistory
open Gocoon.ChatPassthrough
open Gocoon.ForwardedRequest

set_option autoImplicit false

/-! ## Bodies -/

section Bodies

variable {body : GoString} {members : List (GoString × Json)}

def IsExactly (text : GoString) (object : List (GoString × Value ℚ)) : Prop :=
  ∃ written, parse text = some (.obj written) ∧ SameMembers object (exactObject written)

theorem exact_value_obj (members : List (GoString × Json)) :
    exactValue (.obj members) = .obj (exactObject members) := rfl

theorem recode_obj (object : Object float64) :
    recode (.obj object) = .obj (object.map fun member => (member.1, recode member.2)) := by
  exact congrArg Value.obj (map_members_eq _ _ _)

theorem recode_arr (items : List (Any float64)) : recode (.arr items) = .arr (items.map recode) :=
  congrArg Value.arr (map_items_eq _ _ _)

theorem reads_iff (parsed : parse body = some (.obj members)) :
    (∃ object, unmarshalMap float64 body = .ok (some object)) ↔
      Everywhere InRange (.obj members) := by
  rw [← decodes_iff]
  simp only [unmarshal_map_iff, unmarshal, parsed, Option.bind_some]
  constructor
  · intro held
    obtain ⟨object, decoded⟩ := held
    exact ⟨_, decoded⟩
  · intro held
    obtain ⟨value, decoded⟩ := held
    obtain ⟨listed, -, rfl⟩ := Option.map_eq_some_iff.mp decoded
    exact ⟨_, decoded⟩

theorem recoded_body (parsed : parse body = some (.obj members)) {object : Object float64}
    (read : unmarshalMap float64 body = .ok (some object)) :
    recode (.obj object) = mapValue reprint id (.obj (exactObject members)) := by
  have value := (unmarshal_map_iff float64 body object).mp read
  rw [unmarshal, parsed, Option.bind_some] at value
  obtain ⟨_, denotes⟩ := parse_denotes parsed
  exact recode_decoded (value_text_clean denotes) value

theorem recoded_members (parsed : parse body = some (.obj members)) {object : Object float64}
    (read : unmarshalMap float64 body = .ok (some object)) :
    object.map (fun member => (member.1, recode member.2)) =
      (exactObject members).map fun member => (member.1, mapValue reprint id member.2) := by
  have same := recoded_body parsed read
  rw [recode_obj, mapValue, map_members_eq] at same
  exact Value.obj.inj same

theorem written_members {object : Object float64} (sendable : Sendable object) :
    ∃ written, parse (marshal float64 (.obj object)) = some (.obj written) ∧
      exactObject written =
        object.map fun member => (member.1, recode (JsonValues.normalize member.2)) := by
  have fits : depth (.obj object : Any float64) ≤ maxNestingDepth := sendable.depth_lt
  refine ⟨mapMembers formatFloat coerce object, ?_, ?_⟩
  · rw [marshal, parse_printed float64.formatLiteral, if_pos fits]
    rfl
  · have printed := exact_printed (.obj object)
    have sameKeys : normalizeMembers object =
        object.map fun member => (member.1, JsonValues.normalize member.2) := by
      rw [normalize_members_eq]
      apply List.map_congr_left
      intro member inside
      rw [coerce_of_well_formed (sendable.keys member inside)]
    have ascending : Ascending
        (object.map fun member => (member.1, JsonValues.normalize member.2)) :=
      List.pairwise_map.mpr sendable.ascending
    rw [JsonValues.normalize, sameKeys, of_members_ascending ascending, recode_obj,
      List.map_map] at printed
    exact Value.obj.inj printed

theorem normal_members {object : Object float64} (decoded : Decoded object) :
    object.map (fun member => (member.1, JsonValues.normalize member.2)) = object := by
  rw [map_eq_self_iff]
  intro member inside
  rw [normalize_normal (decoded.normal member inside)]

theorem bounded_member (inRange : Everywhere InRange (.obj members))
    {member : GoString × Value ℚ} (inside : member ∈ exactObject members) :
    Everywhere Bounded member.2 := by
  have every := exact_bounded inRange
  rw [exact_value_obj, everywhere_obj] at every
  exact every member inside

theorem set_body_key_exact_iff (parsed : parse body = some (.obj members)) {key : GoString}
    (well : WellFormed key) (value : Any float64) (flat : depth value < maxNestingDepth)
    (wanted : Value ℚ) :
    (∃ out, setBodyKey float64 key value body = .ok out ∧
        IsExactly out (insertKey key wanted (exactObject members))) ↔
      Everywhere InRange (.obj members) ∧
        SameValue wanted (recode (JsonValues.normalize value)) ∧
        ∀ member ∈ exactObject members, member.1 ≠ key → Everywhere Survives member.2 := by
  by_cases inRange : Everywhere InRange (.obj members)
  · obtain ⟨object, read⟩ := (reads_iff parsed).mpr inRange
    have decoded := unmarshal_decoded read
    obtain ⟨written, printed, meaning⟩ := written_members (decoded.toSendable.insert well flat)
    have recoded : exactObject written = insertKey key (recode (JsonValues.normalize value))
        (mapMembers reprint id (exactObject members)) := by
      rw [meaning, insert_map (fun held => recode (JsonValues.normalize held)), map_members_eq]
      have kept := recoded_members parsed read
      rw [← normal_members decoded, List.map_map] at kept
      exact congrArg _ kept
    have set : setBodyKey float64 key value body =
        .ok (marshal float64 (.obj (insertKey key value object))) := by
      rw [setBodyKey, read]
    simp only [set, Except.ok.injEq, exists_eq_left', IsExactly, printed, Option.some.injEq,
      Value.obj.injEq, recoded, same_insert_iff reprint key _ _ (exact_object_ascending members),
      inRange, true_and]
    apply and_congr_right
    intro _
    apply forall₂_congr
    intro member inside
    rw [same_reprinted_iff (bounded_member inRange inside)]
  · apply iff_of_false _ fun held => inRange held.1
    rintro ⟨out, set, -⟩
    apply inRange
    rw [← reads_iff parsed]
    unfold setBodyKey at set
    split at set
    · cases set
    · cases set
    · rename_i object read
      exact ⟨object, read⟩

end Bodies

/-! ## Reading messages -/

section Reading

variable {Number Other : Type}

def fieldOf (value : Value Number) (key : GoString) : Value Number :=
  match value with
  | .obj fields => (fields.lookup key).getD .null
  | _ => .null

def textOf : Value Number → GoString
  | .str text => text
  | _ => []

def elementsOf : Value Number → List (Value Number)
  | .arr items => items
  | _ => []

def callOf (call : Value Number) : Option (GoString × GoString) :=
  match fieldOf call (ascii "function") with
  | .obj function =>
      some (textOf (fieldOf (.obj function) (ascii "name")),
        textOf (fieldOf (.obj function) (ascii "arguments")))
  | _ => none

def callsOf (message : Value Number) : List (GoString × GoString) :=
  if textOf (fieldOf message (ascii "role")) = ascii "assistant" then
    (elementsOf (fieldOf message (ascii "tool_calls"))).filterMap callOf
  else []

variable (change : Number → Other)

theorem field_map (value : Value Number) (key : GoString) :
    fieldOf (mapValue change id value) key = mapValue change id (fieldOf value key) := by
  cases value with
  | null | bool | num | str | arr => rfl
  | obj fields =>
      rw [mapValue, fieldOf, fieldOf, map_members_eq]
      simp only [id, lookup_map]
      cases fields.lookup key <;> rfl

theorem text_map (value : Value Number) : textOf (mapValue change id value) = textOf value := by
  cases value <;> rfl

theorem elements_map (value : Value Number) :
    elementsOf (mapValue change id value) = (elementsOf value).map (mapValue change id) := by
  cases value with
  | null | bool | num | str | obj => rfl
  | arr items => exact map_items_eq _ _ _

theorem call_map (call : Value Number) : callOf (mapValue change id call) = callOf call := by
  rw [callOf, callOf, field_map]
  cases fieldOf call (ascii "function") with
  | null | bool | num | str | arr => rfl
  | obj function =>
      have inner : ∀ key, textOf (fieldOf (.obj (mapMembers change id function)) key) =
          textOf (fieldOf (.obj function) key) := by
        intro key
        rw [← text_map change, ← field_map]
        rfl
      simp only [mapValue, inner]

theorem calls_map (message : Value Number) :
    callsOf (mapValue change id message) = callsOf message := by
  rw [callsOf, callsOf, field_map, field_map, text_map, elements_map, List.filterMap_map]
  congr 2
  exact funext fun call => call_map change call

end Reading

/-! ## Blocks at the end of a text -/

section Blocks

theorem last_angle {front front' back back' : GoString}
    (same : front ++ angle :: back = front' ++ angle :: back') (absent : angle ∉ back)
    (absent' : angle ∉ back') : front = front' ∧ back = back' := by
  rcases List.append_eq_append_iff.mp same with ⟨middle, longer, rest⟩ | ⟨middle, longer, rest⟩
  · cases middle with
    | nil => exact ⟨by simpa using longer.symm, (List.cons.inj rest).2⟩
    | cons byte middle =>
        apply absurd _ absent
        rw [(List.cons.inj rest).2]
        simp
  · cases middle with
    | nil => exact ⟨by simpa using longer, (List.cons.inj rest).2.symm⟩
    | cons byte middle =>
        apply absurd _ absent'
        rw [(List.cons.inj rest).2]
        simp

theorem blocks_after_snoc (jsons : List GoString) (json : GoString) :
    blocksAfter (jsons ++ [json]) = blocksAfter jsons ++ (newline ++ callBlock json) := by
  simp [blocksAfter]

/-- Blocks without `<` in them can be read from the end of a text in one way. -/
theorem blocks_unique {jsons jsons' : List GoString} (length : jsons.length = jsons'.length)
    (absent : ∀ json ∈ jsons, angle ∉ json) (absent' : ∀ json ∈ jsons', angle ∉ json)
    {front front' : GoString}
    (same : front ++ blocksAfter jsons = front' ++ blocksAfter jsons') : jsons = jsons' := by
  induction jsons using List.reverseRecOn generalizing jsons' with
  | nil => exact (List.length_eq_zero_iff.mp length.symm).symm
  | append_singleton jsons json induction =>
      rcases List.eq_nil_or_concat' jsons' with rfl | ⟨others, other, rfl⟩
      · simp at length
      · have closing : angle ∉ ascii "/tool_call>" := by decide
        have inner : ∀ json : GoString, angle ∉ json →
            angle ∉ ascii "tool_call>" ++ newline ++ json ++ newline := by
          intro json noAngle
          have around : angle ∉ ascii "tool_call>" ++ newline ∧ angle ∉ newline := by decide
          simp only [List.mem_append] at around ⊢
          tauto
        have block : ∀ before json : GoString, before ++ (newline ++ callBlock json) =
            before ++ newline ++ angle :: (ascii "tool_call>" ++ newline ++ json ++ newline) ++
              angle :: ascii "/tool_call>" := by
          intro before json
          rw [callBlock, open_tag_angle, close_tag_angle]
          simp
        have ends : ∀ (before : GoString) (jsons : List GoString) (json : GoString),
            before ++ blocksAfter (jsons ++ [json]) =
              (before ++ blocksAfter jsons) ++ (newline ++ callBlock json) := by
          intro before jsons json
          rw [blocks_after_snoc, List.append_assoc]
        rw [ends, ends, block, block] at same
        obtain ⟨opened, -⟩ := last_angle same closing closing
        obtain ⟨before, text⟩ := last_angle opened (inner json (absent json (by simp)))
          (inner other (absent' other (by simp)))
        have sameJson : json = other := by simpa using text
        have rest := induction (by simpa using length)
          (fun each inside => absent each (by simp [inside]))
          (fun each inside => absent' each (by simp [inside])) (List.append_cancel_right before)
        rw [sameJson, rest]

end Blocks

/-! ## Arguments of earlier calls -/

section Arguments

/-- The arguments are written as the same value, or as the text that they were. -/
def ArgumentsKept (arguments raw : GoString) : Prop :=
  ∃ written, parse raw = some written ∧
    (exactValue written = .str arguments ∨
      ∃ tree, parse arguments = some tree ∧ SameValue (exactValue tree) (exactValue written))

def callText (name raw : GoString) : GoString :=
  ascii "\x7b\"arguments\":" ++ raw ++ ascii ",\"name\":" ++ quote name ++ ascii "\x7d"

def CallKept (call : GoString × GoString) (json : GoString) : Prop :=
  ∃ raw, json = callText call.1 raw ∧ ArgumentsKept call.2 raw

/-- The integers of arguments that decode come back as they are. -/
def ArgumentsSurvive (arguments : GoString) : Prop :=
  ∀ tree, parse arguments = some tree → Everywhere InRange tree →
    Everywhere Survives (exactValue tree)

theorem unmarshal_iff (text : GoString) (value : Any float64) :
    unmarshal float64 text = some value ↔
      ∃ tree, parse text = some tree ∧ decodeValue parseFloat tree = some value :=
  Option.bind_eq_some_iff

theorem decoded_arguments_iff {arguments : GoString} {value : Any float64}
    (decoded : unmarshal float64 arguments = some value) :
    ArgumentsKept arguments (marshal float64 value) ↔ ArgumentsSurvive arguments := by
  obtain ⟨tree, parsed, read⟩ := (unmarshal_iff arguments value).mp decoded
  obtain ⟨_, denotes⟩ := parse_denotes parsed
  have inRange : Everywhere InRange tree := (decodes_iff tree).mp ⟨value, read⟩
  have written : parse (marshal float64 value) = some (mapValue formatFloat coerce value) := by
    rw [marshal, parse_printed float64.formatLiteral, if_pos (unmarshal_depth float64 decoded)]
  have recoded : exactValue (mapValue formatFloat coerce value) =
      mapValue reprint id (exactValue tree) := by
    rw [exact_printed, normalize_normal (unmarshal_normal float64 decoded)]
    exact recode_decoded (value_text_clean denotes) read
  have same := same_reprinted_iff (exact_bounded inRange)
  have survive : ArgumentsSurvive arguments ↔ Everywhere Survives (exactValue tree) := by
    simp only [ArgumentsSurvive, parsed, Option.some.injEq, forall_eq', inRange, true_implies]
  rw [survive]
  simp only [ArgumentsKept, written, parsed, Option.some.injEq, exists_eq_left', recoded, same]
  constructor
  · rintro (text | held)
    · -- The value is a string, in which there are no numbers.
      cases shape : exactValue tree with
      | str string => trivial
      | null | bool | num | arr | obj =>
          rw [shape] at text
          cases text
    · exact held
  · exact .inr

theorem refused_arguments {arguments : GoString} (well : WellFormed arguments)
    (refused : unmarshal float64 arguments = none) :
    ArgumentsKept arguments (marshal float64 (.str arguments)) ∧ ArgumentsSurvive arguments := by
  constructor
  · refine ⟨.str arguments, ?_, .inl ?_⟩
    · rw [marshal, parse_printed float64.formatLiteral,
        if_pos (Nat.le_of_lt (scalar_shallow rfl)), mapValue, coerce_of_well_formed well]
    · rw [exactValue, JsonValues.normalize, mapValue, coerce_of_well_formed well, id]
  · intro tree parsed inRange
    obtain ⟨value, read⟩ := (decodes_iff tree).mpr inRange
    rw [(unmarshal_iff arguments value).mpr ⟨tree, parsed, read⟩] at refused
    cases refused

theorem call_json_text (call : GoString × GoString) :
    callJSON float64 call = callText call.1 (marshal float64
      ((unmarshal float64 call.2).getD (.str call.2))) := by
  have apart : ascii "arguments" ≠ ascii "name" := by decide
  have before : ascii "arguments" < ascii "name" := by decide
  have first : openBrace :: (quote (ascii "arguments") ++ [colon]) =
      ascii "\x7b\"arguments\":" := by decide
  have second : comma :: (quote (ascii "name") ++ [colon]) = ascii ",\"name\":" := by decide
  have last : [closeBrace] = ascii "\x7d" := by decide
  rw [callText, ← first, ← second, ← last]
  cases read : unmarshal float64 call.2 <;>
    simp [callJSON, callObject, read, insertKey, apart, before, marshal, print, printMembers,
      separated]

theorem call_text_injective {name raw raw' : GoString}
    (same : callText name raw = callText name raw') : raw = raw' := by
  simpa [callText] using same

theorem call_kept_iff {call : GoString × GoString} (well : WellFormed call.2) :
    CallKept call (callJSON float64 call) ↔ ArgumentsSurvive call.2 := by
  have written : CallKept call (callJSON float64 call) ↔ ArgumentsKept call.2
      (marshal float64 ((unmarshal float64 call.2).getD (.str call.2))) := by
    rw [call_json_text]
    constructor
    · intro ⟨raw, same, kept⟩
      rwa [call_text_injective same]
    · exact fun kept => ⟨_, rfl, kept⟩
  rw [written]
  rcases read : unmarshal float64 call.2 with _ | value
  · have refused := refused_arguments well read
    exact iff_of_true refused.1 refused.2
  · exact decoded_arguments_iff read

end Arguments

/-! ## Messages -/

section Messages

variable {floats : Floats}

theorem string_of_eq (value : Any floats) : stringOf value = textOf value := by
  cases value <;> rfl

theorem call_function_eq (call : Any floats) : callFunction call = callOf call := by
  cases call with
  | null | bool | num | str | arr => rfl
  | obj fields =>
      have same : entry fields (ascii "function") = fieldOf (.obj fields) (ascii "function") := rfl
      rw [callFunction, callOf, same]
      cases fieldOf (.obj fields : Any floats) (ascii "function") with
      | null | bool | num | str | arr => rfl
      | obj function =>
          simp only [string_of_eq]
          rfl

theorem append_started {builder : GoString} (items : List (Any floats))
    (started : 0 < builder.length) :
    blocksAfter ((items.filterMap callFunction).map (callJSON floats)) <:+
      newline ++ items.foldl appendCall builder := by
  rw [append_calls items started, ← List.append_assoc]
  exact List.suffix_append _ _

theorem append_blocks (items : List (Any floats)) (builder : GoString) :
    blocksAfter ((items.filterMap callFunction).map (callJSON floats)) <:+
      newline ++ items.foldl appendCall builder := by
  cases builder with
  | cons byte rest => exact append_started items (Nat.zero_lt_succ _)
  | nil =>
      induction items with
      | nil => exact List.nil_suffix
      | cons item items induction =>
          rw [List.foldl_cons]
          rcases found : callFunction item with _ | call
          · have none : appendCall [] item = [] := by simp only [appendCall, found]
            rw [none, List.filterMap_cons_none found]
            exact induction
          · rw [append_first_call found, append_calls items (by simp [lead, callBlock, newline]),
              List.filterMap_cons_some found, List.map_cons, blocks_after_cons]
            simp [lead]

theorem content_well_formed {content : Any floats} (normal : Normal content) :
    WellFormed (messageContentAsString content) := by
  have lineBreak : WellFormed newline := well_formed_literal (by decide)
  cases normal with
  | str well => exact well
  | null | bool | num | obj => exact .nil
  | arr all =>
      rename_i parts
      rw [messageContentAsString]
      have every : ∀ builder : GoString, WellFormed builder →
          WellFormed (parts.foldl appendPart builder) := by
        induction parts with
        | nil => exact fun builder well => well
        | cons part parts induction =>
            obtain ⟨here, later⟩ := List.forall_mem_cons.mp all
            intro builder well
            apply induction later
            unfold appendPart
            split
            · have text := string_of_normal (entry_normal here (ascii "text"))
              dsimp only
              split_ifs
              · exact well
              · exact well
              · exact (well.append lineBreak).append text
              · exact well.append text
            · exact well
      exact every [] .nil

theorem calls_well_formed (items : List (Any floats)) {builder : GoString}
    (well : WellFormed builder) : WellFormed (items.foldl appendCall builder) := by
  have lineBreak : WellFormed newline := well_formed_literal (by decide)
  have opening : WellFormed toolCallOpenTag := well_formed_literal (by decide)
  have closing : WellFormed toolCallCloseTag := well_formed_literal (by decide)
  induction items generalizing builder with
  | nil => exact well
  | cons item items induction =>
      apply induction
      unfold appendCall
      split
      · exact well
      · have json := fun value : Any floats => print_well_formed floats.formatLiteral value
        have block := fun value : Any floats =>
          (((opening.append lineBreak).append (json value)).append lineBreak).append closing
        dsimp only
        split_ifs
        · exact (well.append lineBreak).append (block _)
        · exact well.append (block _)

theorem rewritten_normal {message rewritten : Object floats}
    (normal : Normal (.obj message : Any floats))
    (rewrites : rewriteAssistantToolCalls message = some rewritten) :
    Normal (.obj rewritten : Any floats) := by
  rw [rewriteAssistantToolCalls] at rewrites
  split at rewrites
  · cases rewrites
    have well := content_well_formed (entry_normal normal (ascii "content"))
    cases normal with
    | obj ascending keys values =>
        apply Normal.obj (delete_ascending (insert_ascending ascending _ _) _)
        · intro member inside
          rcases mem_insert (List.mem_filter.mp inside).1 with rfl | old
          · have key : WellFormed (ascii "content") := well_formed_literal (by decide)
            exact key
          · exact keys member old
        · intro member inside
          rcases mem_insert (List.mem_filter.mp inside).1 with rfl | old
          · exact .str (calls_well_formed _ well)
          · exact values member old
  · cases rewrites

theorem rewritten_text {message rewritten : Object floats}
    (rewrites : rewriteAssistantToolCalls message = some rewritten) :
    textOf (fieldOf (.obj rewritten) (ascii "content")) =
      (elementsOf (fieldOf (.obj message) (ascii "tool_calls"))).foldl appendCall
        (messageContentAsString (entry message (ascii "content"))) := by
  have apart : ascii "content" ≠ ascii "tool_calls" := by decide
  have sameEntry : fieldOf (.obj message) (ascii "tool_calls") =
      entry message (ascii "tool_calls") := rfl
  rw [rewriteAssistantToolCalls] at rewrites
  split at rewrites
  · rename_i call calls listed
    cases rewrites
    rw [fieldOf, lookup_delete_other apart, lookup_insert_same, sameEntry, listed]
    rfl
  · cases rewrites

theorem called_message {message : Any floats} (called : callsOf message ≠ []) :
    ∃ fields call calls, message = .obj fields ∧
      stringOf (entry fields (ascii "role")) = ascii "assistant" ∧
      entry fields (ascii "tool_calls") = .arr (call :: calls) := by
  unfold callsOf at called
  split_ifs at called with assistant
  · cases message with
    | null | bool | num | str | arr => exact absurd rfl called
    | obj fields =>
        have listed : fieldOf (.obj fields) (ascii "tool_calls") =
            entry fields (ascii "tool_calls") := rfl
        rw [listed] at called
        cases shape : entry fields (ascii "tool_calls") with
        | null | bool | num | str | obj =>
            rw [shape] at called
            exact absurd rfl called
        | arr items =>
            rw [shape] at called
            cases items with
            | nil => exact absurd rfl called
            | cons call calls =>
                exact ⟨fields, call, calls, rfl, (string_of_eq _).trans assistant, shape⟩
  · exact absurd rfl called

theorem sent_blocks {message : Any floats} (normal : Normal message) (injection : GoString)
    (found : Bool) :
    blocksAfter ((callsOf message).map (callJSON floats)) <:+
      newline ++ textOf (fieldOf (JsonValues.normalize (rewriteMessage injection found message).1)
        (ascii "content")) := by
  by_cases uncalled : callsOf message = []
  · rw [uncalled]
    exact List.nil_suffix
  · obtain ⟨fields, call, calls, rfl, role, listed⟩ := called_message uncalled
    have notSystem : ascii "assistant" ≠ ascii "system" := by decide
    obtain ⟨rewritten, rewrites⟩ :
        ∃ rewritten, rewriteAssistantToolCalls fields = some rewritten := by
      rw [rewriteAssistantToolCalls, listed]
      exact ⟨_, rfl⟩
    have sent : (rewriteMessage injection found (.obj fields)).1 = .obj rewritten := by
      simp only [rewriteMessage, role, notSystem, false_and, if_false, if_true, rewrites,
        Option.getD_some]
    have assistant : textOf (fieldOf (.obj fields : Any floats) (ascii "role")) =
        ascii "assistant" := (string_of_eq _).symm.trans role
    rw [sent, normalize_normal (rewritten_normal normal rewrites), rewritten_text rewrites,
      callsOf, if_pos assistant, ← funext call_function_eq]
    exact append_blocks _ _

theorem calls_of_well_formed {message : Any floats} (normal : Normal message) :
    ∀ call ∈ callsOf message, WellFormed call.2 := by
  intro call inside
  obtain ⟨fields, first, others, rfl, role, listed⟩ :=
    called_message (List.ne_nil_of_mem inside)
  unfold callsOf at inside
  split_ifs at inside
  · obtain ⟨item, held, function⟩ := List.mem_filterMap.mp inside
    have items : fieldOf (.obj fields) (ascii "tool_calls") = .arr (first :: others) := listed
    rw [items] at held
    have calls : Normal (.arr (first :: others) : Any floats) := listed ▸ entry_normal normal _
    rw [← call_function_eq] at function
    exact (call_function_well_formed (items_of_normal calls held) function).2
  · cases inside

end Messages

/-! ## The history -/

section History

/-- The rewritten message ends with one block for each call, which keeps the call. -/
def CallsKept (message rewritten : Value ℚ) : Prop :=
  ∃ jsons, List.Forall₂ CallKept (callsOf message) jsons ∧ (∀ json ∈ jsons, angle ∉ json) ∧
    blocksAfter jsons <:+ newline ++ textOf (fieldOf rewritten (ascii "content"))

/-- All messages are there, behind one that may have been added. -/
def HistoryKept (messages rewritten : List (Value ℚ)) : Prop :=
  ∃ added kept, rewritten = added ++ kept ∧ List.Forall₂ CallsKept messages kept

theorem call_json_no_angle (call : GoString × GoString) : angle ∉ callJSON float64 call :=
  (call_json_object call).no_angle

theorem calls_kept_iff {original : Value ℚ} {message : Any float64}
    (same : mapValue reprint id original = recode message) (normal : Normal message)
    (injection : GoString) (found : Bool) :
    CallsKept original
        (recode (JsonValues.normalize (rewriteMessage injection found message).1)) ↔
      ∀ call ∈ callsOf original, ArgumentsSurvive call.2 := by
  have calls : callsOf original = callsOf message := by
    rw [← calls_map reprint, same, recode, calls_map]
  have well := calls_of_well_formed normal
  have ends := sent_blocks normal injection found
  have sent : textOf (fieldOf
      (recode (JsonValues.normalize (rewriteMessage injection found message).1))
        (ascii "content")) = textOf (fieldOf
      (JsonValues.normalize (rewriteMessage injection found message).1) (ascii "content")) := by
    rw [recode, field_map, text_map]
  rw [← calls] at well ends
  have each : List.Forall₂ CallKept (callsOf original)
        ((callsOf original).map (callJSON float64)) ↔
      ∀ call ∈ callsOf original, ArgumentsSurvive call.2 := by
    rw [List.forall₂_map_right_iff, List.forall₂_same]
    exact forall₂_congr fun call inside => call_kept_iff (well call inside)
  rw [← each, CallsKept, sent]
  constructor
  · intro held
    obtain ⟨jsons, kept, absent, ended⟩ := held
    obtain ⟨front, whole⟩ := ends
    obtain ⟨front', whole'⟩ := ended
    have listed : jsons = (callsOf original).map (callJSON float64) := by
      apply blocks_unique (by simpa using kept.length_eq.symm) absent _ (whole'.trans whole.symm)
      rw [List.forall_mem_map]
      exact fun call _ => call_json_no_angle call
    rwa [← listed]
  · intro kept
    refine ⟨_, kept, ?_, ends⟩
    rw [List.forall_mem_map]
    exact fun call _ => call_json_no_angle call

theorem rewritten_history_iff {originals : List (Value ℚ)} {messages : List (Any float64)}
    (same : originals.map (mapValue reprint id) = messages.map recode)
    (normal : ∀ message ∈ messages, Normal message) (injection : GoString) (found : Bool) :
    List.Forall₂ CallsKept originals ((rewriteHistoryMessages injection found messages).1.map
        fun message => recode (JsonValues.normalize message)) ↔
      ∀ message ∈ originals, ∀ call ∈ callsOf message, ArgumentsSurvive call.2 := by
  induction messages generalizing originals found with
  | nil =>
      rw [List.map_nil, List.map_eq_nil_iff] at same
      simp [same, rewriteHistoryMessages]
  | cons message messages induction =>
      obtain ⟨original, others, rfl, here, later⟩ := List.map_eq_cons_iff.mp same
      obtain ⟨normalHere, normalLater⟩ := List.forall_mem_cons.mp normal
      rw [rewriteHistoryMessages, List.map_cons, List.forall₂_cons, List.forall_mem_cons,
        calls_kept_iff here normalHere, induction later normalLater]

theorem rewrite_history_length {floats : Floats} (injection : GoString) (found : Bool)
    (messages : List (Any floats)) :
    (rewriteHistoryMessages injection found messages).1.length = messages.length := by
  induction messages generalizing found with
  | nil => rfl
  | cons message messages induction =>
      rw [rewriteHistoryMessages, List.length_cons, induction, List.length_cons]

end History

/-! ## Translated bodies -/

section Translated

theorem penalty_in_range : InRange (ascii "1.5") := by decide +kernel

theorem penalty_parses : (parseFloat (ascii "1.5")).isSome := by
  rw [Option.isSome_iff_exists]
  exact (parse_in_range_iff _).mpr penalty_in_range

def presencePenalty : Float64 := (parseFloat (ascii "1.5")).get penalty_parses

theorem presence_penalty_literal : parseFloat (ascii "1.5") = some presencePenalty := by
  rw [presencePenalty, Option.some_get]

abbrev runnerFloat64 : RunnerFloats := .mk float64 presencePenalty presence_penalty_literal

def KeptKey (key : GoString) : Prop :=
  key ∉ [ascii "messages", ascii "stream", ascii "presence_penalty"] ∧ key ∉ unsupportedFields

def SameEntry : Option (Value ℚ) → Option (Value ℚ) → Prop
  | none, none => True
  | some first, some second => SameValue first second
  | _, _ => False

def historyOf (members : List (GoString × Json)) : List (Value ℚ) :=
  elementsOf (fieldOf (.obj (exactObject members)) (ascii "messages"))

variable {body : GoString} {members : List (GoString × Json)}

theorem translated_kept (object : Object float64) (tools : List (Any float64)) {key : GoString}
    (kept : KeptKey key) :
    (translateObject runnerFloat64 object tools).lookup key = object.lookup key := by
  obtain ⟨named, supported⟩ := kept
  simp only [List.mem_cons, List.not_mem_nil, or_false, not_or] at named
  rw [translateObject, lookup_default_penalty runnerFloat64 named.2.2,
    lookup_insert_other named.2.1, lookup_drop_unsupported, if_neg supported,
    lookup_insert_other named.1]

theorem translated_history (object : Object float64) (tools : List (Any float64)) :
    (translateObject runnerFloat64 object tools).lookup (ascii "messages") =
      some (.arr (translateMessages runnerFloat64 object tools)) := by
  rw [translateObject, lookup_default_penalty runnerFloat64 (by decide),
    lookup_insert_other (by decide), lookup_drop_unsupported, if_neg (by decide),
    lookup_insert_same]

/-- The translated messages are the rewritten ones, behind a system message if there was
none. -/
theorem translated_history_iff {object : Object float64}
    (normal : Normal (.obj object : Any float64)) {originals : List (Value ℚ)}
    (same : originals.map (mapValue reprint id) =
      (itemsOf (entry object (ascii "messages"))).map recode) (tools : List (Any float64)) :
    HistoryKept originals ((translateMessages runnerFloat64 object tools).map
        fun message => recode (JsonValues.normalize message)) ↔
      ∀ message ∈ originals, ∀ call ∈ callsOf message, ArgumentsSurvive call.2 := by
  have messages : ∀ message ∈ itemsOf (entry object (ascii "messages")), Normal message :=
    fun message inside => items_of_normal (entry_normal normal _) inside
  have rewritten := rewritten_history_iff same messages (buildToolInjection tools) false
  have length : originals.length = ((rewriteHistoryMessages (buildToolInjection tools) false
      (itemsOf (entry object (ascii "messages")))).1.map
        fun message => recode (JsonValues.normalize message)).length := by
    rw [List.length_map, rewrite_history_length, ← List.length_map recode, ← same,
      List.length_map]
  obtain ⟨added, sent⟩ : ∃ added, (translateMessages runnerFloat64 object tools).map
      (fun message => recode (JsonValues.normalize message)) =
        added ++ (rewriteHistoryMessages (buildToolInjection tools) false
          (itemsOf (entry object (ascii "messages")))).1.map
            fun message => recode (JsonValues.normalize message) := by
    rw [translateMessages]
    dsimp only
    split_ifs
    · exact ⟨[], rfl⟩
    · rw [List.map_cons]
      exact ⟨[_], rfl⟩
  rw [← rewritten, sent]
  constructor
  · intro held
    obtain ⟨front, kept, whole, all⟩ := held
    have tail := (List.append_inj' whole (length.symm.trans all.length_eq)).2
    rwa [tail]
  · exact fun all => ⟨added, _, rfl, all⟩

theorem same_entry_iff (inRange : Everywhere InRange (.obj members)) (key : GoString) :
    SameEntry ((exactObject members).lookup key)
        (((exactObject members).lookup key).map (mapValue reprint id)) ↔
      ∀ value, (key, value) ∈ exactObject members → Everywhere Survives value := by
  have ascending := exact_object_ascending members
  simp only [← lookup_iff_mem ascending]
  rcases found : (exactObject members).lookup key with _ | value
  · simp [SameEntry]
  · have inside := (lookup_iff_mem ascending key value).mp found
    simp only [Option.map_some, SameEntry, Option.some.injEq, forall_eq']
    exact same_reprinted_iff (bounded_member inRange inside)

theorem recoded_lookup (parsed : parse body = some (.obj members)) {object : Object float64}
    (read : unmarshalMap float64 body = .ok (some object)) (key : GoString) :
    (object.lookup key).map recode =
      ((exactObject members).lookup key).map (mapValue reprint id) := by
  rw [← lookup_map, ← lookup_map, recoded_members parsed read]

theorem tools_listed (parsed : parse body = some (.obj members)) {object : Object float64}
    (read : unmarshalMap float64 body = .ok (some object)) {tool : Value ℚ}
    {tools : List (Value ℚ)}
    (listed : (exactObject members).lookup (ascii "tools") = some (.arr (tool :: tools))) :
    ∃ first others, object.lookup (ascii "tools") = some (.arr (first :: others)) := by
  have same := recoded_lookup parsed read (ascii "tools")
  rw [listed] at same
  obtain ⟨value, found, recoded⟩ := Option.map_eq_some_iff.mp same
  cases value with
  | null | bool | num | str | obj => cases recoded
  | arr items =>
      cases items with
      | nil => cases recoded
      | cons first others => exact ⟨first, others, found⟩

theorem items_of_eq {floats : Floats} (value : Any floats) : itemsOf value = elementsOf value := by
  cases value <;> rfl

theorem recoded_history (parsed : parse body = some (.obj members)) {object : Object float64}
    (read : unmarshalMap float64 body = .ok (some object)) :
    (historyOf members).map (mapValue reprint id) =
      (itemsOf (entry object (ascii "messages"))).map recode := by
  have field : entry object (ascii "messages") = fieldOf (.obj object) (ascii "messages") := rfl
  rw [items_of_eq, field]
  calc (historyOf members).map (mapValue reprint id)
      = elementsOf (fieldOf (mapValue reprint id (.obj (exactObject members)))
          (ascii "messages")) := by rw [field_map, elements_map, historyOf]
    _ = elementsOf (fieldOf (recode (.obj object)) (ascii "messages")) := by
        rw [recoded_body parsed read]
    _ = (elementsOf (fieldOf (.obj object) (ascii "messages"))).map recode := by
        rw [recode, field_map, elements_map]
        rfl

/-- What a translated body holds under the keys that are kept, and as its messages. -/
theorem translated_meaning (parsed : parse body = some (.obj members)) {object : Object float64}
    (read : unmarshalMap float64 body = .ok (some object)) (tools : List (Any float64)) :
    ∃ written,
      parse (marshal float64 (.obj (translateObject runnerFloat64 object tools))) =
        some (.obj written) ∧
      (∀ key, KeptKey key → (exactObject written).lookup key =
        ((exactObject members).lookup key).map (mapValue reprint id)) ∧
      historyOf written = (translateMessages runnerFloat64 object tools).map
        fun message => recode (JsonValues.normalize message) := by
  have decoded := unmarshal_decoded read
  obtain ⟨written, printed, meaning⟩ :=
    written_members (translated_sendable runnerFloat64 decoded.toSendable tools)
  refine ⟨written, printed, ?_, ?_⟩
  · intro key kept
    rw [meaning, lookup_map (fun value => recode (JsonValues.normalize value)),
      translated_kept object tools kept, ← recoded_lookup parsed read]
    nth_rewrite 2 [← decoded.lookup_normal key]
    rw [Option.map_map]
    rfl
  · rw [historyOf, fieldOf, meaning, lookup_map (fun value => recode (JsonValues.normalize value)),
      translated_history, Option.map_some, Option.getD_some, JsonValues.normalize,
      normalize_items_eq, recode_arr, elementsOf, List.map_map]
    rfl

theorem translated_exact_iff (parsed : parse body = some (.obj members)) {tool : Value ℚ}
    {tools : List (Value ℚ)}
    (listed : (exactObject members).lookup (ascii "tools") = some (.arr (tool :: tools))) :
    (∃ out written, translateRequestBody runnerFloat64 body = .ok out ∧
        parse out = some (.obj written) ∧
        (∀ key, KeptKey key → SameEntry ((exactObject members).lookup key)
          ((exactObject written).lookup key)) ∧
        HistoryKept (historyOf members) (historyOf written)) ↔
      Everywhere InRange (.obj members) ∧
        (∀ member ∈ exactObject members, KeptKey member.1 → Everywhere Survives member.2) ∧
        ∀ message ∈ historyOf members, ∀ call ∈ callsOf message, ArgumentsSurvive call.2 := by
  by_cases inRange : Everywhere InRange (.obj members)
  · obtain ⟨object, read⟩ := (reads_iff parsed).mpr inRange
    obtain ⟨first, others, found⟩ := tools_listed parsed read listed
    obtain ⟨written, printed, kept, history⟩ := translated_meaning parsed read (first :: others)
    have translated : translateRequestBody runnerFloat64 body =
        .ok (marshal float64 (.obj (translateObject runnerFloat64 object (first :: others)))) := by
      simp only [translateRequestBody, read, found]
    have normal : Normal (.obj object : Any float64) :=
      unmarshal_normal float64 ((unmarshal_map_iff float64 body object).mp read)
    have arguments := translated_history_iff normal (recoded_history parsed read)
      (first :: others)
    have fields : (∀ key, KeptKey key → SameEntry ((exactObject members).lookup key)
        ((exactObject written).lookup key)) ↔
          ∀ member ∈ exactObject members, KeptKey member.1 → Everywhere Survives member.2 := by
      constructor
      · intro same member inside keptKey
        have here := same member.1 keptKey
        rw [kept member.1 keptKey, same_entry_iff inRange] at here
        exact here member.2 inside
      · intro survive key keptKey
        rw [kept key keptKey, same_entry_iff inRange]
        exact fun value inside => survive (key, value) inside keptKey
    simp only [translated, Except.ok.injEq, exists_eq_left', exists_and_left, printed,
      Option.some.injEq, Value.obj.injEq, fields, history, arguments, inRange, true_and]
  · apply iff_of_false _ fun held => inRange held.1
    rintro ⟨out, written, translated, -⟩
    apply inRange
    rw [← reads_iff parsed]
    unfold translateRequestBody at translated
    split at translated
    · cases translated
    · rename_i nothing
      rw [unmarshal_map_nil_iff, parsed] at nothing
      cases nothing
    · rename_i object read
      exact ⟨object, read⟩

end Translated

/-- For every body that is a JSON object. Forcing the stream off, or setting a model, gives the
same object with that key set exactly when no number of the body is out of range and the
integers under the other keys are the shortest ones with their floats; a model must be UTF-8.
Translating a request with tools keeps the other fields and the arguments of earlier calls
under the same conditions on the numbers in them. -/
theorem rewritten_body_exact_iff {body : GoString} {members : List (GoString × Json)}
    (parsed : parse body = some (.obj members)) :
    ((∃ out, forceNonStream float64 body = .ok out ∧
        IsExactly out (insertKey (ascii "stream") (.bool false) (exactObject members))) ↔
      Everywhere InRange (.obj members) ∧
        ∀ member ∈ exactObject members, member.1 ≠ ascii "stream" →
          Everywhere Survives member.2) ∧
    (∀ model, (∃ out, rewriteJSONModel float64 body model = .ok out ∧
        IsExactly out (insertKey (ascii "model") (.str model) (exactObject members))) ↔
      Everywhere InRange (.obj members) ∧ WellFormed model ∧
        ∀ member ∈ exactObject members, member.1 ≠ ascii "model" →
          Everywhere Survives member.2) ∧
    ∀ tool tools,
      (exactObject members).lookup (ascii "tools") = some (.arr (tool :: tools)) →
      ((∃ out written, translateRequestBody runnerFloat64 body = .ok out ∧
          parse out = some (.obj written) ∧
          (∀ key, KeptKey key → SameEntry ((exactObject members).lookup key)
            ((exactObject written).lookup key)) ∧
          HistoryKept (historyOf members) (historyOf written)) ↔
        Everywhere InRange (.obj members) ∧
          (∀ member ∈ exactObject members, KeptKey member.1 → Everywhere Survives member.2) ∧
          ∀ message ∈ historyOf members, ∀ call ∈ callsOf message, ArgumentsSurvive call.2) := by
  refine ⟨?_, ?_, ?_⟩
  · have key : WellFormed (ascii "stream") := well_formed_literal (by decide)
    have forced := set_body_key_exact_iff parsed key (.bool false) (scalar_shallow rfl)
      (.bool false)
    have same : SameValue (.bool false) (recode (JsonValues.normalize (.bool false))) := rfl
    simp only [same, true_and] at forced
    exact forced
  · intro model
    have key : WellFormed (ascii "model") := well_formed_literal (by decide)
    have set := set_body_key_exact_iff parsed key (.str model) (scalar_shallow rfl) (.str model)
    have same : SameValue (.str model) (recode (JsonValues.normalize (.str model))) ↔
        WellFormed model := by
      rw [← coerce_eq_iff, eq_comm]
      exact Iff.rfl
    rw [same] at set
    exact set
  · intro tool tools listed
    exact translated_exact_iff parsed listed

/-! ## A seed -/

section Seeds

def seedBody (literal : GoString) : GoString :=
  ascii "\x7b\"seed\":" ++ literal ++ ascii "\x7d"

def forcedSeed (literal : GoString) : GoString :=
  ascii "\x7b\"seed\":" ++ literal ++ ascii ",\"stream\":false\x7d"

variable {literal : GoString}

theorem parse_seed (whole : NumberLiteral literal) :
    parse (seedBody literal) = some (.obj [(ascii "seed", .num literal)]) := by
  have key : openBrace :: (quote (ascii "seed") ++ [colon]) = ascii "\x7b\"seed\":" := by decide
  have well : WellFormed (ascii "seed") := well_formed_literal (by decide)
  have printed : seedBody literal =
      print literalFloats.formatFloat (.obj [(ascii "seed", .num ⟨literal, whole⟩)]) := by
    rw [seedBody, ← key, show ascii "\x7d" = [closeBrace] from by decide]
    simp [print, printMembers, separated, literalFloats]
  have fits : depth (.obj [(ascii "seed", .num ⟨literal, whole⟩)] : Any literalFloats) ≤
      maxNestingDepth := by
    simp [depth, depthMembers, maxNestingDepth]
  rw [printed, parse_printed literalFloats.formatLiteral, if_pos fits]
  simp [mapValue, mapMembers, coerce_of_well_formed well, literalFloats]

theorem force_seed (whole : NumberLiteral literal) {float : Float64}
    (read : parseFloat literal = some float) :
    forceNonStream float64 (seedBody literal) = .ok (forcedSeed (formatFloat float)) := by
  have before : ¬ ascii "stream" < ascii "seed" ∧ ascii "stream" ≠ ascii "seed" := by decide
  have decoded : unmarshalMap float64 (seedBody literal) =
      .ok (some [(ascii "seed", .num float)]) := by
    rw [unmarshal_map_iff, unmarshal, parse_seed whole]
    simp [decodeValue, decodeMembers, read, ofMembers, insertKey]
  have key : openBrace :: (quote (ascii "seed") ++ [colon]) = ascii "\x7b\"seed\":" := by decide
  have last : comma :: (quote (ascii "stream") ++ colon :: ascii "false" ++ [closeBrace]) =
      ascii ",\"stream\":false\x7d" := by decide
  have spelled : print formatFloat (.bool false) = ascii "false" := by
    rw [print]
    decide
  rw [forceNonStream, setBodyKey, decoded, forcedSeed, ← key, ← last, ← spelled]
  simp [insertKey, before, marshal, print, printMembers, separated]

theorem exact_seed (literal : GoString) :
    exactObject [(ascii "seed", .num literal)] = [(ascii "seed", .num (exactNumber literal))] := by
  have well : WellFormed (ascii "seed") := well_formed_literal (by decide)
  simp [exactObject, normalizeMembers, JsonValues.normalize, coerce_of_well_formed well, ofMembers,
    insertKey, mapMembers, mapValue]

theorem seed_kept :
    ∃ out, forceNonStream float64 (seedBody (ascii "7")) = .ok out ∧
      IsExactly out (insertKey (ascii "stream") (.bool false)
        (exactObject [(ascii "seed", .num (ascii "7"))])) := by
  have literal : NumberLiteral (ascii "7") := by
    rw [NumberLiteral]
    decide
  have parsed := parse_seed literal
  apply (rewritten_body_exact_iff parsed).1.mpr
  have inRange : InRange (ascii "7") := by decide +kernel
  have value : exactNumber (ascii "7") = 7 := by decide +kernel
  rw [exact_seed, value]
  refine ⟨⟨inRange, trivial⟩, ?_⟩
  intro member inside _
  rw [List.mem_singleton] at inside
  rw [inside]
  exact fun _ => small_is_shortest (by decide) (by decide)

theorem large_seed_digits :
    shortest binary64 decimalTop 9007199254740992 = (9007199254740992, 0) := by
  have number : IsNumber binary64 16 9007199254740992 :=
    ⟨by decide +kernel, by norm_num, by norm_num⟩
  rw [shortest_start (by decide) (by decide) number (by norm_num)]
  decide +kernel

theorem large_seed_printed :
    ∃ float, parseFloat (ascii "9007199254740993") = some float ∧
      formatFloat float = ascii "9007199254740992" := by
  have inRange : InRange (ascii "9007199254740993") := by decide +kernel
  have magnitude : nearest binary64 (split (ascii "9007199254740993")).magnitude =
      9007199254740992 := by decide +kernel
  have plain : ¬ ((9007199254740992 : ℚ) < nearest binary64 (1 / 10 ^ 6) ∨
      10 ^ 21 ≤ (9007199254740992 : ℚ)) := by decide +kernel
  obtain ⟨float, read, sign, rounded⟩ := parse_float_in_range inRange
  rw [magnitude] at rounded
  rw [← rounded] at plain
  have nonzero : float.magnitude ≠ 0 := by
    rw [rounded]
    norm_num
  have digits : shortest binary64 decimalTop float.magnitude = (9007199254740992, 0) := by
    rw [rounded, large_seed_digits]
  refine ⟨float, read, ?_⟩
  rw [format_plain nonzero digits plain, sign]
  decide +kernel

/-- `2 ^ 53 + 1` lies between two floats, and comes back as `2 ^ 53`. -/
theorem large_seed_rounded :
    parse (seedBody (ascii "9007199254740993")) =
        some (.obj [(ascii "seed", .num (ascii "9007199254740993"))]) ∧
      forceNonStream float64 (seedBody (ascii "9007199254740993")) =
        .ok (forcedSeed (ascii "9007199254740992")) ∧
      ¬ ∃ out, forceNonStream float64 (seedBody (ascii "9007199254740993")) = .ok out ∧
        IsExactly out (insertKey (ascii "stream") (.bool false)
          (exactObject [(ascii "seed", .num (ascii "9007199254740993"))])) := by
  have literal : NumberLiteral (ascii "9007199254740993") := by
    rw [NumberLiteral]
    decide
  have parsed := parse_seed literal
  obtain ⟨float, read, printed⟩ := large_seed_printed
  have forced := force_seed literal read
  rw [printed] at forced
  refine ⟨parsed, forced, ?_⟩
  intro exact
  have key : WellFormed (ascii "stream") := well_formed_literal (by decide)
  have kept := ((set_body_key_exact_iff parsed key (.bool false) (scalar_shallow rfl)
    (.bool false)).mp exact).2.2
  have value : exactNumber (ascii "9007199254740993") = 9007199254740993 := by decide +kernel
  have nearby : nearest binary64 9007199254740993 = 9007199254740992 ∧
      nearest binary64 9007199254740992 = 9007199254740992 := by decide +kernel
  rw [exact_seed, value] at kept
  have survives : IsShortest binary64 9007199254740993 :=
    kept _ (List.mem_singleton_self _) (by decide) rfl
  have divides : ∀ zeros : ℕ, 10 ^ zeros ∣ 9007199254740993 → 10 ^ zeros ∣ 9007199254740992 := by
    intro zeros divisor
    cases zeros with
    | zero => exact one_dvd _
    | succ zeros =>
        have ten : 10 ∣ 9007199254740993 := (dvd_pow_self 10 (Nat.succ_ne_zero zeros)).trans divisor
        exact absurd ten (by decide)
  have closest := survives.closest 9007199254740992
  push_cast at closest
  rw [nearby.1, nearby.2] at closest
  have impossible := closest rfl divides
  norm_num at impossible

end Seeds

end Gocoon.BodyFidelity
