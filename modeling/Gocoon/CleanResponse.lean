import Gocoon.CallRecovery
import Gocoon.ResponseTranslation

/-!
# Responses without tags

A response is read as a JSON tree, before and after the translation: the content, the calls and
the finish reason of the first choice, where the last of several members with one key counts.
The content that is left is clean unless removed spans tear a tag apart, the text has blocks and
none of them is a call, or the body does not decode and is returned as it came.
-/

namespace Gocoon.CleanResponse

open Gocoon.LittleEndianBytes
open Gocoon.TlPrimitives (GoString ascii)
open Gocoon.Utf8Text
open Gocoon.JsonText
open Gocoon.JsonPrinting
open Gocoon.JsonValues
open Gocoon.ToolTranslation
open Gocoon.TaggedText
open Gocoon.SpanRemoval
open Gocoon.CallRecovery
open Gocoon.ForwardedRequest (depth_insert)
open Gocoon.ResponseTranslation

set_option autoImplicit false

/-! ## Reading a response -/

section Reading

variable {Number : Type}

def memberOf (key : GoString) : Value Number → Option (Value Number)
  | .obj members => (ofMembers members).lookup key
  | _ => none

def firstItem : Value Number → Option (Value Number)
  | .arr (item :: _) => some item
  | _ => none

def firstChoice (tree : Value Number) : Option (Value Number) :=
  (memberOf (ascii "choices") tree).bind firstItem

def firstMessage (tree : Value Number) : Option (Value Number) :=
  (firstChoice tree).bind (memberOf (ascii "message"))

def contentOf (tree : Value Number) : Option GoString :=
  ((firstMessage tree).bind (memberOf (ascii "content"))).bind stringValue

def toolCallsOf (tree : Value Number) : Option (Value Number) :=
  (firstMessage tree).bind (memberOf (ascii "tool_calls"))

def finishReasonOf (tree : Value Number) : Option (Value Number) :=
  (firstChoice tree).bind (memberOf (ascii "finish_reason"))

theorem member_of_object {key : GoString} {tree found : Value Number}
    (here : memberOf key tree = some found) : ∃ members, tree = .obj members := by
  cases tree with
  | obj members => exact ⟨members, rfl⟩
  | null | bool | num | str | arr => cases here

theorem first_item_array {tree item : Value Number} (here : firstItem tree = some item) :
    ∃ others, tree = .arr (item :: others) := by
  cases tree with
  | arr items =>
      cases items with
      | nil => cases here
      | cons first others =>
          cases here
          exact ⟨others, rfl⟩
  | null | bool | num | str | obj => cases here

theorem content_cases {tree : Value Number} {content : GoString}
    (given : contentOf tree = some content) :
    ∃ choice others message, memberOf (ascii "choices") tree = some (.arr (choice :: others)) ∧
      memberOf (ascii "message") choice = some message ∧
      memberOf (ascii "content") message = some (.str content) := by
  obtain ⟨text, found, isString⟩ := Option.bind_eq_some_iff.mp given
  obtain ⟨message, here, found⟩ := Option.bind_eq_some_iff.mp found
  obtain ⟨choice, listed, here⟩ := Option.bind_eq_some_iff.mp here
  obtain ⟨choices, there, listed⟩ := Option.bind_eq_some_iff.mp listed
  obtain ⟨others, rfl⟩ := first_item_array listed
  cases text with
  | str text =>
      cases isString
      exact ⟨choice, others, message, there, here, found⟩
  | null | bool | num | arr | obj => cases isString

end Reading

/-! ## Reading what was decoded -/

section Decoding

variable {Held Other Number : Type} {parseFloat : List Byte → Option Number}

theorem of_members_map (change : Held → Other) (members : List (GoString × Held)) :
    ofMembers (members.map fun member => (member.1, change member.2)) =
      (ofMembers members).map fun member => (member.1, change member.2) := by
  have every : ∀ object : List (GoString × Held),
      (members.map fun member => (member.1, change member.2)).foldl
          (fun object member => insertKey member.1 member.2 object)
          (object.map fun member => (member.1, change member.2)) =
        (members.foldl (fun object member => insertKey member.1 member.2 object) object).map
          fun member => (member.1, change member.2) := by
    induction members with
    | nil => exact fun object => rfl
    | cons member members induction =>
        intro object
        simp only [List.map_cons, List.foldl_cons, ← insert_map, induction]
  exact every []

theorem decoded_members {members : List (GoString × Json)}
    {decoded : List (GoString × Value Number)}
    (all : List.Forall₂ (fun member entry => entry.1 = member.1 ∧
      decodeValue parseFloat member.2 = some entry.2) members decoded) :
    members.map (fun member => (member.1, decodeValue parseFloat member.2)) =
      decoded.map fun member => (member.1, some member.2) := by
  induction all with
  | nil => rfl
  | cons here others induction => rw [List.map_cons, List.map_cons, here.1, here.2, induction]

theorem decode_member {tree : Json} {value : Value Number}
    (read : decodeValue parseFloat tree = some value) (key : GoString) :
    (memberOf key tree).map (decodeValue parseFloat) = (memberOf key value).map some := by
  cases tree with
  | null | bool | str =>
      cases read
      rfl
  | num literal =>
      obtain ⟨number, -, rfl⟩ := Option.map_eq_some_iff.mp read
      rfl
  | arr items =>
      obtain ⟨decoded, -, rfl⟩ := Option.map_eq_some_iff.mp read
      rfl
  | obj members =>
      obtain ⟨decoded, listed, rfl⟩ := Option.map_eq_some_iff.mp read
      simp only [memberOf]
      rw [of_members_ascending (ascending_of_members decoded), ← lookup_map, ← lookup_map,
        ← of_members_map, ← of_members_map, decoded_members (decode_members_some listed)]

theorem decode_found {tree found : Json} {value : Value Number} {key : GoString}
    (read : decodeValue parseFloat tree = some value) (here : memberOf key tree = some found) :
    ∃ decoded, memberOf key value = some decoded ∧ decodeValue parseFloat found = some decoded := by
  have same := decode_member read key
  rw [here, Option.map_some] at same
  obtain ⟨decoded, there, isSame⟩ := Option.map_eq_some_iff.mp same.symm
  exact ⟨decoded, there, isSame.symm⟩

theorem decode_first {item : Json} {items : List Json} {value : Value Number}
    (read : decodeValue parseFloat (.arr (item :: items)) = some value) :
    ∃ first others, value = .arr (first :: others) ∧ decodeValue parseFloat item = some first := by
  obtain ⟨decoded, listed, rfl⟩ := Option.map_eq_some_iff.mp read
  cases decode_items_some listed with
  | cons here others => exact ⟨_, _, rfl, here⟩

structure Ordered (object : List (GoString × Held)) : Prop where
  ascending : Ascending object
  keys : ∀ member ∈ object, WellFormed member.1

theorem Ordered.insert {object : List (GoString × Held)} (ordered : Ordered object)
    {key : GoString} (well : WellFormed key) (value : Held) :
    Ordered (insertKey key value object) where
  ascending := insert_ascending ordered.ascending key value
  keys := by
    intro member inside
    rcases mem_insert inside with rfl | old
    · exact well
    · exact ordered.keys member old

theorem Ordered.member_of {object : List (GoString × Value Number)} (ordered : Ordered object)
    (key : GoString) : memberOf key (.obj object) = object.lookup key := by
  rw [memberOf, of_members_ascending ordered.ascending]

theorem normal_ordered {object : List (GoString × Value Number)}
    (normal : Normal (.obj object)) : Ordered object := by
  cases normal with
  | obj ascending keys values => exact ⟨ascending, keys⟩

theorem normal_member {value found : Value Number} {key : GoString} (normal : Normal value)
    (here : memberOf key value = some found) : Normal found := by
  obtain ⟨members, rfl⟩ := member_of_object here
  rw [(normal_ordered normal).member_of] at here
  cases normal with
  | obj ascending keys values =>
      exact values (key, found) ((lookup_iff_mem ascending key found).mp here)

theorem normal_first {first : Value Number} {others : List (Value Number)}
    (normal : Normal (.arr (first :: others))) : Normal first := by
  cases normal with
  | arr all => exact all first List.mem_cons_self

end Decoding

/-! ## Reading what was marshalled -/

section Marshalling

variable {floats : Floats}

def written (value : Any floats) : Json := mapValue floats.formatFloat coerce value

theorem parse_marshal {value : Any floats} (shallow : depth value ≤ maxNestingDepth) :
    parse (marshal floats value) = some (written value) := by
  rw [marshal, parse_printed floats.formatLiteral, if_pos shallow]
  rfl

theorem written_member {object : Object floats} (ordered : Ordered object) (key : GoString) :
    memberOf key (written (.obj object)) = (object.lookup key).map written := by
  have same : mapMembers floats.formatFloat coerce object =
      object.map fun member => (member.1, written member.2) := by
    rw [map_members_eq]
    apply List.map_congr_left
    intro member inside
    rw [coerce_of_well_formed (ordered.keys member inside)]
    rfl
  have ascending : Ascending (object.map fun member => (member.1, written member.2)) :=
    List.pairwise_map.mpr ordered.ascending
  rw [written, mapValue, memberOf, same, of_members_ascending ascending, lookup_map]

theorem written_inserted {object : Object floats} (ordered : Ordered object) {key : GoString}
    (well : WellFormed key) (value : Any floats) :
    memberOf key (written (.obj (insertKey key value object))) = some (written value) := by
  rw [written_member (ordered.insert well value), lookup_insert_same, Option.map_some]

theorem written_other {object : Object floats} (ordered : Ordered object) {key other : GoString}
    (well : WellFormed key) (apart : other ≠ key) (value : Any floats) :
    memberOf other (written (.obj (insertKey key value object))) =
      (object.lookup other).map written := by
  rw [written_member (ordered.insert well value), lookup_insert_other apart]

end Marshalling

/-! ## Translating -/

section Translating

variable {floats : Floats} {object : Object floats} {content : GoString}

/-- What the translation looks at in a decoded body. -/
structure Parts (object : Object floats) (content : GoString) where
  choice : Object floats
  others : List (Any floats)
  message : Object floats
  choices : object.lookup (ascii "choices") = some (.arr (.obj choice :: others))
  messages : choice.lookup (ascii "message") = some (.obj message)
  contents : message.lookup (ascii "content") = some (.str content)
  orderedObject : Ordered object
  orderedChoice : Ordered choice
  orderedMessage : Ordered message
  wellContent : WellFormed content
  shallow : depth (.obj object : Any floats) ≤ maxNestingDepth

theorem parts_of_content {body : GoString} {tree : Json} {value : Any floats}
    (parsed : parse body = some tree) (read : decodeValue floats.parseFloat tree = some value)
    (given : contentOf tree = some content) :
    ∃ object, value = .obj object ∧ ∃ parts : Parts object content,
      ((toolCallsOf tree).isSome ↔ (parts.message.lookup (ascii "tool_calls")).isSome) := by
  obtain ⟨choice, others, message, listed, here, found⟩ := content_cases given
  have unmarshalled : unmarshal floats body = some value := by
    rw [unmarshal, parsed, Option.bind_some, read]
  have normal := unmarshal_normal floats unmarshalled
  have shallow := unmarshal_depth floats unmarshalled
  obtain ⟨decodedChoices, listedThere, readChoices⟩ := decode_found read listed
  obtain ⟨decodedChoice, decodedOthers, rfl, readChoice⟩ := decode_first readChoices
  obtain ⟨decodedMessage, hereThere, readMessage⟩ := decode_found readChoice here
  obtain ⟨decodedContent, foundThere, readContent⟩ := decode_found readMessage found
  cases readContent
  obtain ⟨object, rfl⟩ := member_of_object listedThere
  obtain ⟨choiceObject, rfl⟩ := member_of_object hereThere
  obtain ⟨messageObject, rfl⟩ := member_of_object foundThere
  have normalChoice := normal_first (normal_member normal listedThere)
  have normalMessage := normal_member normalChoice hereThere
  have normalContent := normal_member normalMessage foundThere
  have orderedObject := normal_ordered normal
  have orderedChoice := normal_ordered normalChoice
  have orderedMessage := normal_ordered normalMessage
  rw [orderedObject.member_of] at listedThere
  rw [orderedChoice.member_of] at hereThere
  rw [orderedMessage.member_of] at foundThere
  have wellContent : WellFormed content := by
    cases normalContent with
    | str well => exact well
  refine ⟨object, rfl, ⟨choiceObject, decodedOthers, messageObject, listedThere, hereThere,
    foundThere, orderedObject, orderedChoice, orderedMessage, wellContent, shallow⟩, ?_⟩
  have calls := decode_member readMessage (ascii "tool_calls")
  rw [orderedMessage.member_of] at calls
  have present := congrArg Option.isSome calls
  rw [Option.isSome_map, Option.isSome_map] at present
  rw [← present]
  simp only [toolCallsOf, firstMessage, firstChoice, listed, here, Option.bind_some, firstItem]

variable (newID : Nat → GoString)

def Parts.translated (parts : Parts object content) : Object floats :=
  insertKey (ascii "choices")
    (.arr (.obj (translateChoice floats newID parts.choice parts.message) :: parts.others)) object

theorem Parts.answer (parts : Parts object content) {body : GoString}
    (decoded : unmarshalMap floats body = .ok (some object)) :
    translateResponseBody floats newID body = marshal floats (.obj (parts.translated newID)) := by
  have choices : entry object (ascii "choices") = .arr (.obj parts.choice :: parts.others) := by
    rw [entry, parts.choices, Option.getD_some]
  have message : entry parts.choice (ascii "message") = .obj parts.message := by
    rw [entry, parts.messages, Option.getD_some]
  unfold translateResponseBody
  simp only [decoded, choices, message]
  rfl

theorem Parts.plain_choice (parts : Parts object content)
    (callless : parseToolCallsFromText newID content = []) :
    translateChoice floats newID parts.choice parts.message =
      insertKey (ascii "message") (.obj (plainMessage floats parts.message content))
        parts.choice := by
  have text : stringOf (entry parts.message (ascii "content")) = content := by
    rw [entry, parts.contents, Option.getD_some, stringOf]
  simp only [translateChoice, text, callless, List.length_nil, if_true]

theorem Parts.calling_choice (parts : Parts object content)
    (found : parseToolCallsFromText newID content ≠ []) :
    translateChoice floats newID parts.choice parts.message =
      insertKey (ascii "finish_reason") (.str (ascii "tool_calls"))
        (insertKey (ascii "message")
          (.obj (callingMessage floats parts.message content
            (parseToolCallsFromText newID content)))
          parts.choice) := by
  have text : stringOf (entry parts.message (ascii "content")) = content := by
    rw [entry, parts.contents, Option.getD_some, stringOf]
  have counted : (parseToolCallsFromText newID content).length ≠ 0 :=
    fun empty => found (List.length_eq_zero_iff.mp empty)
  simp only [translateChoice, text, if_neg counted]

/-! ### Depth -/

theorem lookup_depth {object : Object floats} {key : GoString} {value : Any floats} {limit : Nat}
    (found : object.lookup key = some value) (bounded : depthMembers object ≤ limit) :
    depth value ≤ limit := by
  obtain ⟨before, after, whole, -⟩ := List.lookup_eq_some_iff.mp found
  exact (depth_members_le object limit).mp bounded (key, value) (by rw [whole]; simp)

theorem call_value_depth (call : ExtractedCall) : depth (callValue floats call) ≤ 2 := by
  apply Nat.succ_le_succ
  rw [depth_members_le]
  intro member inside
  have listed := mem_of_members inside
  simp only [List.mem_cons, List.not_mem_nil, or_false] at listed
  rcases listed with rfl | rfl | rfl
  · exact Nat.zero_le _
  · exact Nat.zero_le _
  · apply Nat.succ_le_succ
    rw [depth_members_le]
    intro member inside
    have listed := mem_of_members inside
    simp only [List.mem_cons, List.not_mem_nil, or_false] at listed
    rcases listed with rfl | rfl
    · exact Nat.le_refl 0
    · exact Nat.le_refl 0

theorem calls_depth (calls : List ExtractedCall) :
    depth (.arr (calls.map (callValue floats)) : Any floats) ≤ 3 := by
  apply Nat.succ_le_succ
  rw [depth_items_le, List.forall_mem_map]
  exact fun call _ => call_value_depth call

theorem message_shallow {message : Object floats} {limit : Nat}
    (bounded : depthMembers message ≤ limit + 3) (calls : List ExtractedCall) :
    depthMembers (plainMessage floats message content) ≤ limit + 3 ∧
      depthMembers (callingMessage floats message content calls) ≤ limit + 3 := by
  constructor
  · exact depth_insert bounded (Nat.zero_le _) _
  · have deep : depth (.arr (calls.map (callValue floats)) : Any floats) ≤ limit + 3 :=
      (calls_depth calls).trans (Nat.le_add_left 3 limit)
    exact depth_insert (depth_insert bounded deep _) (Nat.zero_le _) _

theorem Parts.translated_shallow (parts : Parts object content) :
    depth (.obj (parts.translated newID) : Any floats) ≤ maxNestingDepth := by
  obtain ⟨limit, top⟩ : ∃ limit, maxNestingDepth = limit + 7 := ⟨9993, rfl⟩
  have members : depthMembers object ≤ limit + 6 := by
    have shallow := parts.shallow
    rw [top] at shallow
    exact Nat.le_of_succ_le_succ shallow
  have items := Nat.le_of_succ_le_succ (lookup_depth parts.choices members)
  have listed := (depth_items_le _ (limit + 5)).mp items
  have choice : depthMembers parts.choice ≤ limit + 4 :=
    Nat.le_of_succ_le_succ (listed _ List.mem_cons_self)
  have message : depthMembers parts.message ≤ limit + 3 :=
    Nat.le_of_succ_le_succ (lookup_depth parts.messages choice)
  have translated :
      depthMembers (translateChoice floats newID parts.choice parts.message) ≤ limit + 4 := by
    by_cases callless : parseToolCallsFromText newID content = []
    · rw [parts.plain_choice newID callless]
      apply depth_insert choice
      exact Nat.succ_le_succ (message_shallow message []).1
    · rw [parts.calling_choice newID callless]
      apply depth_insert _ (Nat.zero_le _)
      apply depth_insert choice
      exact Nat.succ_le_succ (message_shallow message _).2
  rw [top]
  apply Nat.succ_le_succ
  apply depth_insert members
  apply Nat.succ_le_succ
  rw [depth_items_le, List.forall_mem_cons]
  constructor
  · exact Nat.succ_le_succ translated
  · exact fun item inside => listed item (List.mem_cons_of_mem _ inside)

/-! ### The answer -/

theorem Parts.first_choice (parts : Parts object content) :
    firstChoice (written (.obj (parts.translated newID))) =
      some (written (.obj (translateChoice floats newID parts.choice parts.message))) := by
  have well : WellFormed (ascii "choices") := well_formed_literal (by decide)
  rw [firstChoice, Parts.translated, written_inserted parts.orderedObject well, Option.bind_some]
  rfl

theorem written_string {text : GoString} (well : WellFormed text) :
    written (.str text : Any floats) = .str text := by
  rw [written, mapValue, coerce_of_well_formed well]

theorem Parts.plain_answer (parts : Parts object content)
    (callless : parseToolCallsFromText newID content = []) :
    contentOf (written (.obj (parts.translated newID))) = some (stripThinkBlocks content) ∧
      ((toolCallsOf (written (.obj (parts.translated newID)))).isSome ↔
        (parts.message.lookup (ascii "tool_calls")).isSome) := by
  have wellMessage : WellFormed (ascii "message") := well_formed_literal (by decide)
  have wellKey : WellFormed (ascii "content") := well_formed_literal (by decide)
  have message : firstMessage (written (.obj (parts.translated newID))) =
      some (written (.obj (plainMessage floats parts.message content))) := by
    rw [firstMessage, parts.first_choice, Option.bind_some, parts.plain_choice newID callless,
      written_inserted parts.orderedChoice wellMessage]
  constructor
  · rw [contentOf, message, Option.bind_some, plainMessage,
      written_inserted parts.orderedMessage wellKey, Option.bind_some,
      written_string (strip_think_well_formed parts.wellContent), stringValue]
  · rw [toolCallsOf, message, Option.bind_some, plainMessage,
      written_other parts.orderedMessage wellKey (by decide), Option.isSome_map]

theorem Parts.calling_answer (parts : Parts object content)
    (found : parseToolCallsFromText newID content ≠ []) :
    contentOf (written (.obj (parts.translated newID))) = some (stripThinkAndToolCalls content) ∧
      (toolCallsOf (written (.obj (parts.translated newID)))).isSome ∧
      finishReasonOf (written (.obj (parts.translated newID))) =
        some (.str (ascii "tool_calls")) := by
  have wellMessage : WellFormed (ascii "message") := well_formed_literal (by decide)
  have wellKey : WellFormed (ascii "content") := well_formed_literal (by decide)
  have wellCalls : WellFormed (ascii "tool_calls") := well_formed_literal (by decide)
  have wellReason : WellFormed (ascii "finish_reason") := well_formed_literal (by decide)
  have choice := parts.orderedChoice.insert wellMessage
    (.obj (callingMessage floats parts.message content (parseToolCallsFromText newID content)))
  have message : firstMessage (written (.obj (parts.translated newID))) =
      some (written (.obj (callingMessage floats parts.message content
        (parseToolCallsFromText newID content)))) := by
    rw [firstMessage, parts.first_choice, Option.bind_some, parts.calling_choice newID found,
      written_other choice wellReason (by decide), lookup_insert_same, Option.map_some]
  have calls := parts.orderedMessage.insert wellCalls
    (.arr ((parseToolCallsFromText newID content).map (callValue floats)))
  refine ⟨?_, ?_, ?_⟩
  · rw [contentOf, message, Option.bind_some, callingMessage, written_inserted calls wellKey,
      Option.bind_some, written_string (visible_well_formed parts.wellContent), stringValue]
  · rw [toolCallsOf, message, Option.bind_some, callingMessage,
      written_other calls wellKey (by decide), lookup_insert_same, Option.map_some]
    rfl
  · rw [finishReasonOf, parts.first_choice, Option.bind_some, parts.calling_choice newID found,
      written_inserted choice wellReason, written_string wellCalls]

end Translating

/-! ## Clean answers -/

/-- The answer has a content without complete spans, and calls exactly if some were recovered
from the content that was translated. -/
def IsClean (newID : Nat → GoString) (content answer : GoString) : Prop :=
  ∃ tree text, parse answer = some tree ∧ contentOf tree = some text ∧
    ¬ HasSpan thinkOpenTag thinkCloseTag text ∧
    ¬ HasSpan toolCallOpenTag toolCallCloseTag text ∧
    ((toolCallsOf tree).isSome ↔ parseToolCallsFromText newID content ≠ []) ∧
    (parseToolCallsFromText newID content ≠ [] →
      finishReasonOf tree = some (.str (ascii "tool_calls")))

/-- A block outside the think spans holds a call. Of the think tags with a close tag behind them
none was torn apart by think spans and stands outside the call spans, and neither a think tag nor a
call tag is torn apart by the call spans. -/
def CleanCalling (pieces : List GoString) : Prop :=
  HasCall pieces.flatten ∧
    ∀ left, Outside toolCallOpenTag toolCallCloseTag pieces.flatten left →
      ¬ KeptSpan thinkOpenTag thinkCloseTag left ∧ ¬ TornSpan thinkOpenTag thinkCloseTag left ∧
      ¬ TornSpan toolCallOpenTag toolCallCloseTag left

/-- The message has no calls of its own, there is no block outside the think spans, and they tear no
think tag with a close tag behind it apart. -/
def CleanPlain (tree : Json) (pieces : List GoString) : Prop :=
  toolCallsOf tree = none ∧ ¬ HasSpan toolCallOpenTag toolCallCloseTag pieces.flatten ∧
    ¬ TornSpan thinkOpenTag thinkCloseTag pieces

/-- Of a body that decodes, the pieces of the content outside its think spans are clean in one of
the two ways. A body that does not decode has nothing to remove. -/
def Cleanable (floats : Floats) (tree : Json) (content : GoString) : Prop :=
  if (decodeValue floats.parseFloat tree).isSome then
    ∀ pieces, Outside thinkOpenTag thinkCloseTag content pieces →
      CleanCalling pieces ∨ CleanPlain tree pieces
  else
    toolCallsOf tree = none ∧ ¬ HasSpan thinkOpenTag thinkCloseTag content ∧
      ¬ HasSpan toolCallOpenTag toolCallCloseTag content

section Cleaning

variable {floats : Floats} {newID : Nat → GoString} {body content text : GoString} {tree : Json}

theorem is_clean_iff {answer : GoString} {tree : Json} (parsed : parse answer = some tree)
    (read : contentOf tree = some text) :
    IsClean newID content answer ↔
      ¬ HasSpan thinkOpenTag thinkCloseTag text ∧
      ¬ HasSpan toolCallOpenTag toolCallCloseTag text ∧
      ((toolCallsOf tree).isSome ↔ parseToolCallsFromText newID content ≠ []) ∧
      (parseToolCallsFromText newID content ≠ [] →
        finishReasonOf tree = some (.str (ascii "tool_calls"))) := by
  constructor
  · intro clean
    obtain ⟨other, found, parsedToo, readToo, held⟩ := clean
    rw [parsed] at parsedToo
    cases parsedToo
    rw [read] at readToo
    cases readToo
    exact held
  · exact fun held => ⟨tree, text, parsed, read, held⟩

theorem undecoded_returned (parsed : parse body = some tree) (given : contentOf tree = some content)
    (unread : decodeValue floats.parseFloat tree = none) :
    translateResponseBody floats newID body = body := by
  obtain ⟨_, _, _, listed, -⟩ := content_cases given
  obtain ⟨members, rfl⟩ := member_of_object listed
  have failed : unmarshalMap floats body = .error .mismatch := by
    have absent : decodeMembers floats.parseFloat members = none := by
      simpa [decodeValue] using unread
    simp only [unmarshalMap, parsed, absent]
  simp only [translateResponseBody, failed]

theorem undecoded_clean_iff (parsed : parse body = some tree)
    (given : contentOf tree = some content)
    (unread : decodeValue floats.parseFloat tree = none) :
    IsClean newID content (translateResponseBody floats newID body) ↔
      Cleanable floats tree content := by
  have failed : ¬ (decodeValue floats.parseFloat tree).isSome := by
    rw [unread]
    exact Bool.false_ne_true
  rw [undecoded_returned parsed given unread, is_clean_iff parsed given, Cleanable, if_neg failed]
  constructor
  · intro clean
    obtain ⟨noThink, noCall, calls, -⟩ := clean
    rw [no_call_without_spans noThink noCall] at calls
    refine ⟨?_, noThink, noCall⟩
    rw [← Option.not_isSome_iff_eq_none]
    exact fun present => calls.mp present rfl
  · intro held
    obtain ⟨absent, noThink, noCall⟩ := held
    rw [no_call_without_spans noThink noCall, absent]
    exact ⟨noThink, noCall, by simp, fun found => absurd rfl found⟩

variable {pieces : List GoString}

theorem plain_clean_iff {object : Object floats} (parts : Parts object content)
    (outside : Outside thinkOpenTag thinkCloseTag content pieces)
    (own : (toolCallsOf tree).isSome ↔ (parts.message.lookup (ascii "tool_calls")).isSome)
    (callless : parseToolCallsFromText newID content = []) :
    IsClean newID content (marshal floats (.obj (parts.translated newID))) ↔
      CleanPlain tree pieces := by
  obtain ⟨read, calls⟩ := parts.plain_answer newID callless
  rw [is_clean_iff (parse_marshal (parts.translated_shallow newID)) read, calls, ← own,
    think_left outside, outside.has_span_iff think_tags, callless, CleanPlain,
    ← Option.not_isSome_iff_eq_none]
  constructor
  · rintro ⟨unjoined, noCall, absent, -⟩
    exact ⟨fun present => absent.mp present rfl, noCall, unjoined⟩
  · rintro ⟨absent, noCall, unjoined⟩
    exact ⟨unjoined, noCall, ⟨fun present => absurd present absent, fun found => absurd rfl found⟩,
      fun found => absurd rfl found⟩

theorem calling_clean_iff {object : Object floats} (parts : Parts object content)
    (outside : Outside thinkOpenTag thinkCloseTag content pieces)
    (found : parseToolCallsFromText newID content ≠ []) :
    IsClean newID content (marshal floats (.obj (parts.translated newID))) ↔
      CleanCalling pieces := by
  obtain ⟨read, calls, reason⟩ := parts.calling_answer newID found
  rw [is_clean_iff (parse_marshal (parts.translated_shallow newID)) read]
  constructor
  · rintro ⟨noThink, noCall, -⟩
    refine ⟨(recovered_iff outside).mp found, fun left further => ?_⟩
    rw [visible_think_iff outside further, not_or] at noThink
    rw [visible_call_iff outside further] at noCall
    exact ⟨noThink.1, noThink.2, noCall⟩
  · rintro ⟨-, held⟩
    obtain ⟨left, further⟩ := outside_exists call_tags pieces.flatten
    obtain ⟨unkept, untorn, noCall⟩ := held left further
    rw [visible_think_iff outside further, visible_call_iff outside further]
    exact ⟨not_or.mpr ⟨unkept, untorn⟩, noCall, iff_of_true calls found, fun _ => reason⟩

end Cleaning

/-- For every body with a content: the translated answer is clean exactly if the spans that are
removed tear no tag apart, no block is left without a call, and the body decodes or has nothing to
remove. -/
theorem translated_response_clean_iff (floats : Floats) (newID : Nat → GoString)
    (body content : GoString) (tree : Json) (parsed : parse body = some tree)
    (given : contentOf tree = some content) :
    IsClean newID content (translateResponseBody floats newID body) ↔
      Cleanable floats tree content := by
  cases read : decodeValue floats.parseFloat tree with
  | none => exact undecoded_clean_iff parsed given read
  | some value =>
      obtain ⟨object, rfl, parts, own⟩ := parts_of_content parsed read given
      have decoded : unmarshalMap floats body = .ok (some object) := by
        rw [unmarshal_map_iff, unmarshal, parsed, Option.bind_some, read]
      rw [parts.answer newID decoded, Cleanable, read, if_pos Option.isSome_some]
      have either : ∀ pieces, Outside thinkOpenTag thinkCloseTag content pieces →
          (IsClean newID content (marshal floats (.obj (parts.translated newID))) ↔
            CleanCalling pieces ∨ CleanPlain tree pieces) := by
        intro pieces outside
        by_cases callless : parseToolCallsFromText newID content = []
        · rw [plain_clean_iff parts outside own callless]
          refine ⟨.inr, fun held => held.resolve_left fun calling => ?_⟩
          exact (recovered_iff outside).mpr calling.1 callless
        · rw [calling_clean_iff parts outside callless]
          refine ⟨.inl, fun held => held.resolve_right fun plain => ?_⟩
          exact plain.2.1 ((recovered_iff outside).mp callless).hasSpan
      constructor
      · exact fun clean pieces outside => (either pieces outside).mp clean
      · intro held
        obtain ⟨pieces, outside⟩ := outside_exists think_tags content
        exact (either pieces outside).mpr (held pieces outside)

/-! ## Three contents -/

def responseObject (content : GoString) : Object literalFloats :=
  [(ascii "choices", .arr [.obj [(ascii "message", .obj [(ascii "content", .str content)])]])]

def response (content : GoString) : GoString :=
  marshal literalFloats (.obj (responseObject content))

def sampleID (_ : Nat) : GoString := ascii "tc"

def calling : GoString :=
  ascii "<think>hm</think><tool_call>\x7b\"name\":\"f\"\x7d</tool_call>"

def unparsed : GoString := ascii "<tool_call>oops</tool_call>"

def joining : GoString := ascii "<th<think></think>ink>hm</think>"

theorem response_parsed (content : GoString) :
    parse (response content) = some (written (.obj (responseObject content))) := by
  apply parse_marshal
  simp [responseObject, depth, depthMembers, depthItems, maxNestingDepth]

/-- A thought and a call are removed, and the call is recovered. -/
theorem calling_answer_clean :
    IsClean sampleID calling (translateResponseBody literalFloats sampleID (response calling)) := by
  have given : contentOf (written (.obj (responseObject calling))) = some calling := by
    decide +kernel
  have decodes : (decodeValue literalFloats.parseFloat
      (written (.obj (responseObject calling)))).isSome := by
    rw [written, decode_written literalFloats.parseFormat]
    rfl
  have found : parseToolCallsFromText sampleID calling ≠ [] := by decide +kernel
  apply (translated_response_clean_iff literalFloats sampleID (response calling) calling
    (written (.obj (responseObject calling))) (response_parsed calling) given).mpr
  rw [Cleanable, if_pos decodes]
  refine fun pieces outside => .inl ⟨(recovered_iff outside).mp found, fun left further => ?_⟩
  -- nothing stands outside the spans
  have nothing : left.flatten = [] := by
    rw [← further.flatten call_tags, ← outside.flatten think_tags]
    decide +kernel
  refine ⟨fun kept => ?_, fun torn => ?_, fun torn => ?_⟩
  · exact not_has_span_nil (by decide) (nothing ▸ kept.hasSpan)
  · exact not_has_span_nil (by decide) (nothing ▸ torn.hasSpan)
  · exact not_has_span_nil (by decide) (nothing ▸ torn.hasSpan)

/-- A block that is no call stays in the content, and a thought inside an open tag leaves the
tag. -/
theorem spans_left_over :
    (parse (response unparsed)).bind contentOf = some unparsed ∧
      (parse (response joining)).bind contentOf = some joining ∧
      ¬ IsClean sampleID unparsed
        (translateResponseBody literalFloats sampleID (response unparsed)) ∧
      ¬ IsClean sampleID joining
        (translateResponseBody literalFloats sampleID (response joining)) := by
  have left : (parse (translateResponseBody literalFloats sampleID (response unparsed))).bind
      contentOf = some unparsed := by decide +kernel
  have joined : (parse (translateResponseBody literalFloats sampleID (response joining))).bind
      contentOf = some (ascii "<think>hm</think>") := by decide +kernel
  refine ⟨by decide +kernel, by decide +kernel, ?_, ?_⟩
  · intro clean
    obtain ⟨tree, text, parsed, read, -, noCall, -⟩ := clean
    rw [parsed, Option.bind_some, read] at left
    cases left
    exact noCall ⟨[], ascii "oops</tool_call>", by decide, ascii "oops", [], by decide⟩
  · intro clean
    obtain ⟨tree, text, parsed, read, noThink, -⟩ := clean
    rw [parsed, Option.bind_some, read] at joined
    cases joined
    exact noThink ⟨[], ascii "hm</think>", by decide, ascii "hm", [], by decide⟩

end Gocoon.CleanResponse
