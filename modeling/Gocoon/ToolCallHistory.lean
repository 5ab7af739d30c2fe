import Gocoon.BraceMatcher

/-!
# Tool calls through the message history

An assistant message with tool calls is rewritten to text, and the text is read back by the
functions that read a model's answer. A call is marshalled between two tags; the marshalled
object holds no `<`, so the tags are found where they were written, and the brace matcher
returns the object itself. What is left is the round trip of the object, and the only calls
that it loses are those whose arguments are nested as deep as the decoder goes.
-/

namespace Gocoon.ToolCallHistory

open Gocoon.TlPrimitives (GoString ascii)
open Gocoon.Utf8Text
open Gocoon.JsonText
open Gocoon.JsonPrinting
open Gocoon.JsonValues
open Gocoon.GoStrings
open Gocoon.BraceMatcher
open Gocoon.ToolTranslation

set_option autoImplicit false

/-! ## One block -/

theorem open_tag_angle : toolCallOpenTag = angle :: ascii "tool_call>" := by decide

theorem close_tag_angle : toolCallCloseTag = angle :: ascii "/tool_call>" := by decide

theorem newline_foreign :
    0x0A ∉ toolCallOpenTag ∧ 0x0A ∉ toolCallCloseTag ∧ 0x0A ∉ thinkOpenTag := by decide

section Blocks

variable {floats : Floats}

def IsObject (floats : Floats) (json : GoString) : Prop :=
  ∃ object : Object floats, json = marshal floats (.obj object)

theorem IsObject.no_angle {json : GoString} (printed : IsObject floats json) : angle ∉ json := by
  obtain ⟨object, rfl⟩ := printed
  exact print_no_angle floats.formatLiteral _

theorem IsObject.extract {json : GoString} (printed : IsObject floats json)
    (front back : GoString) :
    extractJSONObject (front ++ json ++ back) front.length = some json := by
  obtain ⟨object, rfl⟩ := printed
  have parsed := parse_value_printed floats.formatLiteral (.obj object)
    (depth (.obj object : Any floats)) [] (by simp [Stops])
  rw [if_pos (Nat.le_refl _)] at parsed
  obtain ⟨text, whole, denotes⟩ := parse_value_sound _ _ _ _ parsed
  rw [List.append_nil, List.append_nil] at whole
  rw [marshal, whole]
  exact extract_object denotes

theorem IsObject.starts {json : GoString} (printed : IsObject floats json) :
    ∃ tail, json = openBrace :: tail := by
  obtain ⟨object, rfl⟩ := printed
  exact ⟨_, rfl⟩

def blockContent (json rest : GoString) : GoString :=
  0x0A :: (json ++ newline ++ (toolCallCloseTag ++ rest))

theorem call_block_eq (json rest : GoString) :
    callBlock json ++ rest = toolCallOpenTag ++ blockContent json rest := by
  simp [callBlock, blockContent, newline]

theorem block_content_split (json rest : GoString) :
    blockContent json rest = newline ++ json ++ newline ++ (toolCallCloseTag ++ rest) := by
  simp [blockContent, newline]

theorem close_index {json : GoString} (noAngle : angle ∉ json) (rest : GoString) :
    index toolCallCloseTag (json ++ newline ++ (toolCallCloseTag ++ rest)) =
      some (json.length + 1) := by
  have foreign : angle ∉ json ++ newline := by
    rw [List.mem_append, not_or]
    exact ⟨noAngle, by decide⟩
  have start := index_start toolCallCloseTag rest
  rw [close_tag_angle] at start ⊢
  rw [index_skip foreign, start]
  simp [newline]

theorem close_index_content {json : GoString} (noAngle : angle ∉ json) (rest : GoString) :
    index toolCallCloseTag (blockContent json rest) = some (json.length + 2) := by
  have separated := index_separated newline_foreign.2.1
    (by decide : ¬ toolCallCloseTag <:+: []) (json ++ newline ++ (toolCallCloseTag ++ rest))
  rw [List.nil_append, close_index noAngle] at separated
  exact separated

theorem close_index_block {json : GoString} (noAngle : angle ∉ json) (rest : GoString) :
    index toolCallCloseTag (toolCallOpenTag ++ blockContent json rest) =
      some (json.length + 1 + (toolCallOpenTag.length + 1)) := by
  rw [blockContent, index_separated newline_foreign.2.1 (by decide), close_index noAngle,
    Option.map_some]

theorem call_in_block {json : GoString} (printed : IsObject floats json) (rest : GoString) :
    callInBlock (blockContent json rest) (json.length + 2) = decodeCall json := by
  have front : (blockContent json rest).take (json.length + 2) = newline ++ json ++ newline := by
    rw [block_content_split, List.take_left' (by simp [newline])]
  have brace : index [openBrace] (newline ++ json ++ newline) = some 1 := by
    obtain ⟨tail, rfl⟩ := printed.starts
    have start := index_start [openBrace] (tail ++ newline)
    rw [List.append_assoc, index_skip (by decide), List.cons_append]
    rw [List.singleton_append] at start
    rw [start]
    rfl
  have found := printed.extract newline (newline ++ (toolCallCloseTag ++ rest))
  rw [callInBlock, front, brace, Option.bind_some, block_content_split, List.append_assoc]
  rw [show (1 : Nat) = newline.length from rfl, found, Option.bind_some]

/-- The calls after one more tag pair. -/
def addFound (newID : Nat → GoString) (calls : List ExtractedCall) :
    Option (GoString × GoString) → List ExtractedCall
  | none => calls
  | some (name, arguments) => calls ++ [⟨newID calls.length, name, arguments⟩]

def addCall (newID : Nat → GoString) (calls : List ExtractedCall) (json : GoString) :
    List ExtractedCall :=
  addFound newID calls (decodeCall json)

/-- The next open tag behind `front` is the one that follows it. -/
def Untagged (front : GoString) : Prop :=
  ∀ rest, index toolCallOpenTag (front ++ (toolCallOpenTag ++ rest)) = some front.length

theorem collect_block {json : GoString} (printed : IsObject floats json) {front : GoString}
    (untagged : Untagged front) (newID : Nat → GoString) (fuel : Nat)
    (calls : List ExtractedCall) (rest : GoString) :
    collectCalls newID (fuel + 1) calls (front ++ (callBlock json ++ rest)) =
      collectCalls newID fuel (addCall newID calls json) rest := by
  have content : (front ++ (toolCallOpenTag ++ blockContent json rest)).drop
      (front.length + toolCallOpenTag.length) = blockContent json rest := by
    rw [← List.append_assoc, ← List.length_append, List.drop_left]
  have behind : (blockContent json rest).drop (json.length + 2 + toolCallCloseTag.length) =
      rest := by
    rw [block_content_split, ← List.append_assoc, List.drop_left']
    simp only [List.length_append, newline, List.length_cons, List.length_nil]
    omega
  rw [call_block_eq, collectCalls, untagged]
  simp only [content, close_index_content printed.no_angle, call_in_block printed, behind, addCall]
  cases decodeCall json <;> rfl

theorem strip_block {json : GoString} (noAngle : angle ∉ json) {front : GoString}
    (untagged : Untagged front) (fuel : Nat) (rest : GoString) :
    stripSpans toolCallOpenTag toolCallCloseTag (fuel + 1) (front ++ (callBlock json ++ rest)) =
      front ++ stripSpans toolCallOpenTag toolCallCloseTag fuel rest := by
  have behind : (front ++ (toolCallOpenTag ++ blockContent json rest)).drop
      (front.length + (json.length + 1 + (toolCallOpenTag.length + 1)) +
        toolCallCloseTag.length) = rest := by
    rw [block_content_split, ← List.append_assoc, ← List.append_assoc, ← List.append_assoc,
      List.drop_left']
    simp only [List.length_append, newline, List.length_cons, List.length_nil]
    omega
  rw [call_block_eq, stripSpans, untagged]
  simp only [List.take_left, List.drop_left, close_index_block noAngle, behind]

/-! ## A run of blocks -/

def blocksAfter (jsons : List GoString) : GoString :=
  jsons.flatMap fun json => newline ++ callBlock json

theorem untagged_nil : Untagged [] := by
  intro rest
  exact index_start toolCallOpenTag rest

theorem untagged_newline {front : GoString} (absent : ¬ toolCallOpenTag <:+: front) :
    Untagged (front ++ newline) := by
  intro rest
  rw [newline, List.append_assoc, List.singleton_append, index_separated newline_foreign.1 absent,
    index_start]
  simp

theorem blocks_after_cons (json : GoString) (jsons : List GoString) :
    blocksAfter (json :: jsons) = newline ++ (callBlock json ++ blocksAfter jsons) := by
  simp [blocksAfter]

theorem untagged_line : Untagged newline := untagged_newline (by decide : ¬ _ <:+: [])

theorem strip_spans_nil {openTag closeTag : GoString} (closing : 0 < closeTag.length) (fuel : Nat) :
    stripSpans openTag closeTag fuel [] = [] := by
  have none : index closeTag [] = none := by
    rw [index_eq_none_iff, List.infix_nil]
    exact List.ne_nil_of_length_pos closing
  cases fuel with
  | zero => rfl
  | succ fuel =>
      rw [stripSpans]
      split
      · rfl
      · simp [none]

theorem collect_calls_nil (newID : Nat → GoString) (fuel : Nat) (calls : List ExtractedCall) :
    collectCalls newID fuel calls [] = calls := by
  have none : index toolCallOpenTag [] = none := by decide
  cases fuel with
  | zero => rfl
  | succ fuel => rw [collectCalls, none]

theorem collect_blocks {jsons : List GoString} (printed : ∀ json ∈ jsons, IsObject floats json)
    (newID : Nat → GoString) {fuel : Nat} (enough : jsons.length ≤ fuel)
    (calls : List ExtractedCall) :
    collectCalls newID fuel calls (blocksAfter jsons) = jsons.foldl (addCall newID) calls := by
  induction jsons generalizing fuel calls with
  | nil => exact collect_calls_nil newID fuel calls
  | cons json jsons induction =>
      cases fuel with
      | zero => cases enough
      | succ fuel =>
          obtain ⟨here, later⟩ := List.forall_mem_cons.mp printed
          rw [blocks_after_cons, collect_block here untagged_line,
            induction later (Nat.le_of_succ_le_succ enough), List.foldl_cons]

theorem strip_blocks {jsons : List GoString} (noAngle : ∀ json ∈ jsons, angle ∉ json)
    {fuel : Nat} (enough : jsons.length ≤ fuel) :
    stripSpans toolCallOpenTag toolCallCloseTag fuel (blocksAfter jsons) =
      List.replicate jsons.length 0x0A := by
  induction jsons generalizing fuel with
  | nil => exact strip_spans_nil (by decide) fuel
  | cons json jsons induction =>
      cases fuel with
      | zero => cases enough
      | succ fuel =>
          obtain ⟨here, later⟩ := List.forall_mem_cons.mp noAngle
          rw [blocks_after_cons, strip_block here untagged_line,
            induction later (Nat.le_of_succ_le_succ enough)]
          rfl

theorem strip_spans_absent {openTag closeTag text : GoString} (absent : index openTag text = none)
    (fuel : Nat) : stripSpans openTag closeTag fuel text = text := by
  cases fuel with
  | zero => rfl
  | succ fuel => rw [stripSpans, absent]

theorem think_angle : thinkOpenTag = angle :: ascii "think>" := by decide

theorem think_absent_block {json rest : GoString} (noAngle : angle ∉ json)
    (absent : index thinkOpenTag (toolCallCloseTag ++ rest) = none) :
    index thinkOpenTag (callBlock json ++ rest) = none := by
  have foreign : angle ∉ json ++ newline := by
    rw [List.mem_append, not_or]
    exact ⟨noAngle, by decide⟩
  rw [call_block_eq, blockContent, index_separated newline_foreign.2.2 (by decide)]
  rw [think_angle] at absent ⊢
  rw [index_skip foreign, absent]
  rfl

theorem think_absent_blocks {jsons : List GoString} (noAngle : ∀ json ∈ jsons, angle ∉ json) :
    index thinkOpenTag (toolCallCloseTag ++ blocksAfter jsons) = none := by
  induction jsons with
  | nil => decide +kernel
  | cons json jsons induction =>
      obtain ⟨here, later⟩ := List.forall_mem_cons.mp noAngle
      rw [blocks_after_cons, newline, List.singleton_append,
        index_separated newline_foreign.2.2 (by decide),
        think_absent_block here (induction later)]
      rfl

def lead (existing : GoString) : GoString := if existing = [] then [] else existing ++ newline

theorem untagged_lead {existing : GoString} (absent : ¬ toolCallOpenTag <:+: existing) :
    Untagged (lead existing) := by
  unfold lead
  split_ifs
  · exact untagged_nil
  · exact untagged_newline absent

theorem think_absent {existing json : GoString} {jsons : List GoString}
    (absent : ¬ thinkOpenTag <:+: existing) (noAngle : ∀ each ∈ json :: jsons, angle ∉ each) :
    index thinkOpenTag (lead existing ++ (callBlock json ++ blocksAfter jsons)) = none := by
  obtain ⟨here, later⟩ := List.forall_mem_cons.mp noAngle
  have block := think_absent_block here (think_absent_blocks later)
  unfold lead
  split_ifs
  · exact block
  · rw [newline, List.append_assoc, List.singleton_append,
      index_separated newline_foreign.2.2 absent, block]
    rfl

theorem blocks_after_length (jsons : List GoString) :
    jsons.length ≤ (blocksAfter jsons).length := by
  induction jsons with
  | nil => exact Nat.le_refl _
  | cons json jsons induction =>
      rw [blocks_after_cons]
      simp only [List.length_append, List.length_cons, newline]
      omega

/-- The text that an assistant message with calls is rewritten to. -/
def historyText (existing json : GoString) (jsons : List GoString) : GoString :=
  lead existing ++ (callBlock json ++ blocksAfter jsons)

variable {existing json : GoString} {jsons : List GoString}

theorem history_fuel : ∃ fuel, (historyText existing json jsons).length = fuel + 1 ∧
    jsons.length ≤ fuel := by
  have enough := blocks_after_length jsons
  refine ⟨(historyText existing json jsons).length - 1, ?_, ?_⟩ <;>
  · simp only [historyText, List.length_append, callBlock, newline, List.length_cons,
      List.length_nil]
    omega

theorem history_clean (noThink : ¬ thinkOpenTag <:+: existing)
    (noAngle : ∀ each ∈ json :: jsons, angle ∉ each) :
    stripThinkBlocks (historyText existing json jsons) = historyText existing json jsons :=
  strip_spans_absent (think_absent noThink noAngle) _

/-- The calls read from a rewritten message are those whose objects decode. -/
theorem parse_history (printed : ∀ each ∈ json :: jsons, IsObject floats each)
    (noCall : ¬ toolCallOpenTag <:+: existing) (noThink : ¬ thinkOpenTag <:+: existing)
    (newID : Nat → GoString) :
    parseToolCallsFromText newID (historyText existing json jsons) =
      (json :: jsons).foldl (addCall newID) [] := by
  have clean := history_clean noThink fun each member => (printed each member).no_angle
  obtain ⟨here, later⟩ := List.forall_mem_cons.mp printed
  obtain ⟨fuel, size, enough⟩ := @history_fuel existing json jsons
  rw [parseToolCallsFromText]
  simp only [clean, size]
  rw [historyText, collect_block here (untagged_lead noCall), collect_blocks later newID enough,
    List.foldl_cons]

theorem strip_history (noAngle : ∀ each ∈ json :: jsons, angle ∉ each)
    (noCall : ¬ toolCallOpenTag <:+: existing) (noThink : ¬ thinkOpenTag <:+: existing) :
    stripThinkAndToolCalls (historyText existing json jsons) = trimSpace existing := by
  have clean := history_clean noThink noAngle
  obtain ⟨here, later⟩ := List.forall_mem_cons.mp noAngle
  obtain ⟨fuel, size, enough⟩ := @history_fuel existing json jsons
  rw [stripThinkAndToolCalls]
  simp only [clean, size]
  rw [historyText, strip_block here (untagged_lead noCall), strip_blocks later enough,
    trim_space_newlines]
  unfold lead
  split_ifs with empty
  · rw [empty]
  · exact trim_space_newline existing

end Blocks

/-! ## One call -/

section Calls

variable {floats : Floats}

theorem call_object_eq {name arguments : GoString} {value : Any floats}
    (decodes : unmarshal floats arguments = some value) :
    callObject name arguments = [(ascii "arguments", value), (ascii "name", .str name)] := by
  have apart : ascii "arguments" ≠ ascii "name" := by decide
  have before : ascii "arguments" < ascii "name" := by decide
  simp only [callObject, decodes, insertKey, if_neg apart, if_pos before]

/-- The members of a marshalled call, as the decoder of the struct sees them. -/
def callMembers (name : GoString) (value : Any floats) : List Member :=
  [readMember floats.formatFloat (ascii "arguments", value),
    readMember floats.formatFloat (ascii "name", .str name)]

theorem name_field {name : GoString} (well : WellFormed name) (value : Any floats) :
    decodeField (ascii "name") storeString [] (callMembers name value) = (name, false) := by
  have apart : foldName (coerce (ascii "arguments")) ≠ foldName (ascii "name") := by
    decide +kernel
  have same : foldName (coerce (ascii "name")) = foldName (ascii "name") := by decide
  simp [decodeField, callMembers, storeField, readMember, apart, same, storeString, mapValue,
    coerce_of_well_formed well]

theorem arguments_field (name : GoString) (value : Any floats) :
    decodeField (ascii "arguments") storeRaw [] (callMembers name value) =
      (marshal floats value, false) := by
  have apart : foldName (coerce (ascii "name")) ≠ foldName (ascii "arguments") := by
    decide +kernel
  have same : foldName (coerce (ascii "arguments")) = foldName (ascii "arguments") := by
    decide +kernel
  simp [decodeField, callMembers, storeField, readMember, apart, same, storeRaw, marshal]

theorem trim_space_object (members : Object floats) :
    trimSpace (marshal floats (.obj members)) = marshal floats (.obj members) :=
  trim_space_between (by decide) (by decide) (by decide) (by decide) _

theorem decode_call_marshalled {name : GoString} {members : Object floats}
    (named : name ≠ []) (well : WellFormed name)
    (shallow : depth (.obj members : Any floats) < maxNestingDepth) :
    decodeCall (marshal floats
      (.obj [(ascii "arguments", .obj members), (ascii "name", .str name)])) =
      some (name, marshal floats (.obj members)) := by
  have fits : depthMembers [(ascii "arguments", (.obj members : Any floats)),
      (ascii "name", .str name)] < maxNestingDepth := by
    simpa [depthMembers, depth] using shallow
  have read : structMembers (marshal floats
      (.obj [(ascii "arguments", .obj members), (ascii "name", .str name)])) =
      .ok (callMembers name (.obj members)) := struct_members_marshal floats fits
  have notEmpty : marshal floats (.obj members) ≠ [] := List.cons_ne_nil _ _
  have notNull : marshal floats (.obj members) ≠ ascii "null" := by
    intro same
    have first := congrArg List.head? same
    have brace : (marshal floats (.obj members)).head? = some openBrace := rfl
    rw [brace] at first
    exact absurd first (by decide)
  simp only [decodeCall, read, name_field well, arguments_field, trim_space_object]
  simp [named, notEmpty, notNull]

/-- A call whose arguments decode to an object nested less deep than the decoder goes. -/
structure GoodCall (floats : Floats) (call : GoString × GoString) : Prop where
  named : call.1 ≠ []
  well : WellFormed call.1
  decodes : ∃ members, unmarshal floats call.2 = some (.obj members) ∧
    depth (.obj members : Any floats) < maxNestingDepth

def callJSON (floats : Floats) (call : GoString × GoString) : GoString :=
  marshal floats (.obj (callObject call.1 call.2))

theorem call_json_object (call : GoString × GoString) : IsObject floats (callJSON floats call) :=
  ⟨_, rfl⟩

/-- A good call comes back with its name, and with arguments that decode to the same value. -/
theorem good_call_returns {call : GoString × GoString} (good : GoodCall floats call) :
    ∃ arguments, decodeCall (callJSON floats call) = some (call.1, arguments) ∧
      unmarshal floats arguments = unmarshal floats call.2 := by
  obtain ⟨members, decodes, shallow⟩ := good.decodes
  refine ⟨marshal floats (.obj members), ?_, ?_⟩
  · rw [callJSON, call_object_eq decodes]
    exact decode_call_marshalled good.named good.well shallow
  · rw [decodes, unmarshal_marshal, if_pos (Nat.le_of_lt shallow),
      normalize_normal (unmarshal_normal floats decodes)]

theorem add_calls {calls : List (GoString × GoString)}
    (good : ∀ call ∈ calls, GoodCall floats call) (newID : Nat → GoString)
    (before : List ExtractedCall) :
    ((calls.map (callJSON floats)).foldl (addCall newID) before).map (·.name) =
        before.map (·.name) ++ calls.map Prod.fst ∧
      ((calls.map (callJSON floats)).foldl (addCall newID) before).map
          (fun call => unmarshal floats call.arguments) =
        before.map (fun call => unmarshal floats call.arguments) ++
          calls.map fun call => unmarshal floats call.2 := by
  induction calls generalizing before with
  | nil => simp
  | cons call calls induction =>
      obtain ⟨here, later⟩ := List.forall_mem_cons.mp good
      obtain ⟨arguments, decoded, same⟩ := good_call_returns here
      have one : addCall newID before (callJSON floats call) =
          before ++ [⟨newID before.length, call.1, arguments⟩] := by
        rw [addCall, decoded]
        rfl
      have rest := induction later (before ++ [⟨newID before.length, call.1, arguments⟩])
      rw [List.map_cons, List.foldl_cons, one, rest.1, rest.2]
      simp [same]

/-! ## The rewritten message -/

theorem append_calls (items : List (Any floats)) {builder : GoString}
    (started : 0 < builder.length) :
    items.foldl appendCall builder =
      builder ++ blocksAfter ((items.filterMap callFunction).map (callJSON floats)) := by
  induction items generalizing builder with
  | nil => simp [blocksAfter]
  | cons item items induction =>
      rw [List.foldl_cons]
      rcases found : callFunction item with _ | call
      · have none : appendCall builder item = builder := by simp only [appendCall, found]
        rw [none, induction started, List.filterMap_cons_none found]
      · have one : appendCall builder item =
            builder ++ newline ++ callBlock (callJSON floats call) := by
          simp only [appendCall, found, callJSON]
          exact if_pos started
        rw [one, induction (by simp [newline]), List.filterMap_cons_some found, List.map_cons,
          blocks_after_cons]
        simp

theorem append_first_call {item : Any floats} {call : GoString × GoString}
    (function : callFunction item = some call) (existing : GoString) :
    appendCall existing item = lead existing ++ callBlock (callJSON floats call) := by
  simp only [appendCall, function, lead, callJSON]
  cases existing <;> simp

theorem rewritten_content {message rewritten : Object floats}
    {calls : List (GoString × GoString)}
    (functions : (itemsOf (entry message (ascii "tool_calls"))).map callFunction = calls.map some)
    (rewrites : rewriteAssistantToolCalls message = some rewritten) :
    ∃ call others, calls = call :: others ∧
      stringOf (entry rewritten (ascii "content")) =
        historyText (messageContentAsString (entry message (ascii "content")))
          (callJSON floats call) (others.map (callJSON floats)) := by
  rw [rewriteAssistantToolCalls] at rewrites
  split at rewrites
  · rename_i item items listed
    cases rewrites
    rw [listed, itemsOf] at functions
    cases calls with
    | nil => cases functions
    | cons call others =>
        obtain ⟨here, later⟩ := List.cons.inj functions
        refine ⟨call, others, rfl, ?_⟩
        have named : items.filterMap callFunction = others := by
          have listed := congrArg (List.filterMap id) later
          simpa [List.filterMap_map] using listed
        have apart : ascii "content" ≠ ascii "tool_calls" := by decide
        have stored : ∀ (content : GoString), entry (deleteKey (ascii "tool_calls")
            (insertKey (ascii "content") (.str content) message)) (ascii "content") =
              .str content := by
          intro content
          rw [entry, lookup_delete_other apart, lookup_insert_same, Option.getD_some]
        rw [stored, stringOf, List.foldl_cons, append_first_call here,
          append_calls items (by simp [callBlock, newline]), named, historyText,
          List.append_assoc]
  · cases rewrites

theorem entry_normal {object : Object floats} (normal : Normal (.obj object : Any floats))
    (key : GoString) : Normal (entry object key) := by
  cases normal with
  | obj ascending keys values =>
      rw [entry]
      rcases found : object.lookup key with _ | value
      · exact .null
      · obtain ⟨before, after, whole, -⟩ := List.lookup_eq_some_iff.mp found
        exact values (key, value) (by rw [whole]; simp)

theorem string_of_normal {value : Any floats} (normal : Normal value) :
    WellFormed (stringOf value) := by
  cases normal with
  | str well => exact well
  | null | bool | num | arr | obj => exact .nil

theorem items_of_normal {value item : Any floats} (normal : Normal value)
    (inside : item ∈ itemsOf value) : Normal item := by
  cases normal with
  | arr all => exact all item inside
  | null | bool | num | str | obj => cases inside

theorem call_function_well_formed {call : Any floats} (normal : Normal call)
    {function : GoString × GoString} (found : callFunction call = some function) :
    WellFormed function.1 ∧ WellFormed function.2 := by
  unfold callFunction at found
  split at found
  · rename_i fields
    split at found
    · rename_i held same
      cases found
      have inner : Normal (.obj held : Any floats) := same ▸ entry_normal normal _
      exact ⟨string_of_normal (entry_normal inner _), string_of_normal (entry_normal inner _)⟩
    · cases found
  · cases found

end Calls

/-- For every message of every decoded request whose calls all have a name and arguments that
decode to an object nested less deep than the decoder goes, and whose content holds none of
the tags: the calls read back from the rewritten content are the calls of the message, in
their order, and the visible text is the content without surrounding white space. -/
theorem tool_call_history_survives (floats : Floats) (newID : Nat → GoString) (body : GoString)
    (object message rewritten : Object floats) (calls : List (GoString × GoString))
    (decoded : unmarshalMap floats body = .ok (some object))
    (listed : .obj message ∈ itemsOf (entry object (ascii "messages")))
    (functions : (itemsOf (entry message (ascii "tool_calls"))).map callFunction = calls.map some)
    (named : ∀ call ∈ calls, call.1 ≠ [])
    (objects : ∀ call ∈ calls, ∃ members, unmarshal floats call.2 = some (.obj members) ∧
      depth (.obj members : Any floats) < maxNestingDepth)
    (untagged : ∀ tag ∈ [thinkOpenTag, thinkCloseTag, toolCallOpenTag, toolCallCloseTag],
      ¬ tag <:+: messageContentAsString (entry message (ascii "content")))
    (rewrites : rewriteAssistantToolCalls message = some rewritten) :
    (parseToolCallsFromText newID (stringOf (entry rewritten (ascii "content")))).map
        (·.name) = calls.map Prod.fst ∧
      (parseToolCallsFromText newID (stringOf (entry rewritten (ascii "content")))).map
          (fun call => unmarshal floats call.arguments) =
        calls.map (fun call => unmarshal floats call.2) ∧
      stripThinkAndToolCalls (stringOf (entry rewritten (ascii "content"))) =
        trimSpace (messageContentAsString (entry message (ascii "content"))) := by
  have normal : Normal (.obj message : Any floats) :=
    items_of_normal (entry_normal
      (unmarshal_normal floats ((unmarshal_map_iff floats body object).mp decoded)) _) listed
  have good : ∀ call ∈ calls, GoodCall floats call := by
    intro call member
    have found : some call ∈ (itemsOf (entry message (ascii "tool_calls"))).map callFunction := by
      rw [functions]
      exact List.mem_map_of_mem member
    obtain ⟨item, inside, function⟩ := List.mem_map.mp found
    have normalItem := items_of_normal (entry_normal normal _) inside
    exact ⟨named call member, (call_function_well_formed normalItem function).1,
      objects call member⟩
  have noThink := untagged thinkOpenTag (by simp)
  have noCall := untagged toolCallOpenTag (by simp)
  obtain ⟨call, others, rfl, content⟩ := rewritten_content functions rewrites
  have printed : ∀ json ∈ callJSON floats call :: others.map (callJSON floats),
      IsObject floats json := by
    rw [← List.map_cons, List.forall_mem_map]
    exact fun each _ => call_json_object each
  have added := add_calls good newID []
  rw [content, parse_history printed noCall noThink newID, ← List.map_cons]
  refine ⟨added.1, added.2, ?_⟩
  exact strip_history (fun json member => (printed json member).no_angle) noCall noThink

/-! ## A message with one call -/

section Sample

def sampleMessage (content name arguments : GoString) : Object literalFloats :=
  [(ascii "content", .str content),
    (ascii "tool_calls", .arr [.obj [(ascii "function",
      .obj [(ascii "arguments", .str arguments), (ascii "name", .str name)])]])]

def sampleObject (content name arguments : GoString) : Object literalFloats :=
  [(ascii "messages", .arr [.obj (sampleMessage content name arguments)])]

def sampleBody (content name arguments : GoString) : GoString :=
  marshal literalFloats (.obj (sampleObject content name arguments))

variable {content name arguments : GoString}

theorem sample_decoded (wellContent : WellFormed content) (wellName : WellFormed name)
    (wellArguments : WellFormed arguments) :
    unmarshalMap literalFloats (sampleBody content name arguments) =
      .ok (some (sampleObject content name arguments)) := by
  have function : Normal (.obj [(ascii "arguments", .str arguments), (ascii "name", .str name)] :
      Any literalFloats) := by
    apply Normal.of_keys [ascii "arguments", ascii "name"] rfl (by decide)
      (by decide)
    simpa using ⟨.str wellArguments, .str wellName⟩
  have call : Normal (.obj [(ascii "function",
      .obj [(ascii "arguments", .str arguments), (ascii "name", .str name)])] :
        Any literalFloats) := by
    apply Normal.of_keys [ascii "function"] rfl (by decide) (by decide)
    simpa using function
  have message : Normal (.obj (sampleMessage content name arguments) : Any literalFloats) := by
    apply Normal.of_keys [ascii "content", ascii "tool_calls"] rfl (by decide)
      (by decide)
    simpa [sampleMessage] using ⟨.str wellContent, .arr (by simpa using call)⟩
  have whole : Normal (.obj (sampleObject content name arguments) : Any literalFloats) := by
    apply Normal.of_keys [ascii "messages"] rfl (by decide) (by decide)
    simpa [sampleObject] using .arr (by simpa using message)
  rw [unmarshal_map_iff, sampleBody, unmarshal_marshal, normalize_normal whole, if_pos]
  simp [depth, sampleObject, sampleMessage, depthMembers, depthItems, maxNestingDepth]

theorem sample_listed :
    .obj (sampleMessage content name arguments) ∈
      itemsOf (entry (sampleObject content name arguments) (ascii "messages")) := by
  simp [sampleObject, entry, itemsOf]

theorem sample_functions :
    (itemsOf (entry (sampleMessage content name arguments) (ascii "tool_calls"))).map
      callFunction = [(name, arguments)].map some := by
  have calls : (ascii "tool_calls" == ascii "content") = false := by decide
  have named : (ascii "name" == ascii "arguments") = false := by decide
  simp [sampleMessage, entry, List.lookup_cons, calls, named, itemsOf, callFunction, stringOf]

theorem sample_content :
    messageContentAsString (entry (sampleMessage content name arguments) (ascii "content")) =
      content := by
  simp [sampleMessage, entry, messageContentAsString]

def sampleRewritten (content name arguments : GoString) : Object literalFloats :=
  (rewriteAssistantToolCalls (sampleMessage content name arguments)).getD []

theorem sample_rewrites :
    rewriteAssistantToolCalls (sampleMessage content name arguments) =
      some (sampleRewritten content name arguments) := by
  have calls : (ascii "tool_calls" == ascii "content") = false := by decide
  simp [sampleRewritten, rewriteAssistantToolCalls, sampleMessage, entry, List.lookup_cons, calls]

def nestedMembers : Nat → Object literalFloats
  | 0 => []
  | count + 1 => [(ascii "x", .obj (nestedMembers count))]

def nestedText (count : Nat) : GoString := marshal literalFloats (.obj (nestedMembers count))

theorem nested_depth (count : Nat) :
    depth (.obj (nestedMembers count) : Any literalFloats) = count + 1 := by
  induction count with
  | zero => rfl
  | succ count induction => simp [nestedMembers, depth, depthMembers] at induction ⊢; omega

theorem nested_normal (count : Nat) :
    Normal (.obj (nestedMembers count) : Any literalFloats) := by
  induction count with
  | zero => exact .of_keys [] rfl (by simp) (by simp) (by simp [nestedMembers])
  | succ count induction =>
      apply Normal.of_keys [ascii "x"] rfl (by decide) (by decide)
      simpa [nestedMembers] using induction

theorem nested_text_ascii (count : Nat) : ∀ byte ∈ nestedText count, byte < 0x80 := by
  induction count with
  | zero => decide +kernel
  | succ count induction =>
      have key : ∀ byte ∈ openBrace :: (quote (ascii "x") ++ [colon]), byte < 0x80 :=
        List.forall_iff_forall_mem.mp (by decide)
      have closing : ∀ byte ∈ [closeBrace], byte < 0x80 :=
        List.forall_iff_forall_mem.mp (by decide)
      have whole : nestedText (count + 1) =
          (openBrace :: (quote (ascii "x") ++ [colon])) ++ nestedText count ++ [closeBrace] := by
        simp [nestedText, nestedMembers, marshal, print, printMembers, separated]
      rw [whole]
      exact List.forall_mem_append.mpr ⟨List.forall_mem_append.mpr ⟨key, induction⟩, closing⟩

theorem nested_text_decodes {count : Nat} (fits : count < maxNestingDepth) :
    unmarshal literalFloats (nestedText count) = some (.obj (nestedMembers count)) := by
  rw [nestedText, unmarshal_marshal, nested_depth, normalize_normal (nested_normal count),
    if_pos (Nat.succ_le_of_lt fits)]

theorem deep_call_refused {count : Nat} (deepest : count + 1 = maxNestingDepth)
    (name : GoString) : decodeCall (callJSON literalFloats (name, nestedText count)) = none := by
  have decodes := nested_text_decodes (Nat.lt_of_succ_le (Nat.le_of_eq deepest))
  have deeper : ¬ depth (.obj [(ascii "arguments", .obj (nestedMembers count)),
      (ascii "name", .str name)] : Any literalFloats) ≤ maxNestingDepth := by
    rw [depth, depthMembers, nested_depth]
    omega
  have refused : parse (callJSON literalFloats (name, nestedText count)) = none := by
    rw [callJSON, call_object_eq decodes, marshal, parse_printed literalFloats.formatLiteral,
      if_neg deeper]
  rw [decodeCall, structMembers, refused]

theorem deep_call_dropped {count : Nat} (deepest : count + 1 = maxNestingDepth) :
    parseToolCallsFromText (fun _ => ascii "tc") (stringOf (entry
      (sampleRewritten [] (ascii "f") (nestedText count)) (ascii "content"))) = [] := by
  obtain ⟨call, others, same, content⟩ :=
    rewritten_content (@sample_functions [] (ascii "f") (nestedText count)) sample_rewrites
  obtain ⟨rfl, rfl⟩ := List.cons.inj same
  have printed : ∀ json ∈ [callJSON literalFloats (ascii "f", nestedText count)],
      IsObject literalFloats json := by
    intro json member
    rw [List.mem_singleton] at member
    rw [member]
    exact call_json_object _
  rw [content, sample_content, List.map_nil,
    parse_history printed (by decide) (by decide), List.foldl_cons, addCall,
    deep_call_refused deepest, List.foldl_nil]
  rfl

theorem tagged_name_survives :
    (parseToolCallsFromText (fun _ => ascii "tc") (stringOf (entry
        (sampleRewritten (ascii "a < b") (ascii "<think>\"") (nestedText 1))
        (ascii "content")))).map (·.name) = [ascii "<think>\""] := by
  have small : 1 < maxNestingDepth := by decide
  have survives := tool_call_history_survives literalFloats (fun _ => ascii "tc")
    (sampleBody (ascii "a < b") (ascii "<think>\"") (nestedText 1)) _ _ _
    [(ascii "<think>\"", nestedText 1)]
    (sample_decoded (well_formed_literal (by decide)) (well_formed_literal (by decide))
      (well_formed_ascii (nested_text_ascii 1)))
    sample_listed sample_functions (by decide)
    (by
      intro call member
      rw [List.mem_singleton] at member
      rw [member]
      exact ⟨nestedMembers 1, nested_text_decodes small, by rw [nested_depth]; decide⟩)
    (by
      rw [sample_content]
      decide +kernel)
    sample_rewrites
  exact survives.1

/-- Arguments nested exactly as deep as the decoder goes decode to an object, but the object
of the call around them is one level deeper, and the call is dropped. -/
theorem deepest_arguments_dropped :
    ∃ count, count + 1 = maxNestingDepth ∧
      unmarshalMap literalFloats (sampleBody [] (ascii "f") (nestedText count)) =
        .ok (some (sampleObject [] (ascii "f") (nestedText count))) ∧
      .obj (sampleMessage [] (ascii "f") (nestedText count)) ∈
        itemsOf (entry (sampleObject [] (ascii "f") (nestedText count)) (ascii "messages")) ∧
      (itemsOf (entry (sampleMessage [] (ascii "f") (nestedText count))
        (ascii "tool_calls"))).map callFunction = [some (ascii "f", nestedText count)] ∧
      unmarshal literalFloats (nestedText count) = some (.obj (nestedMembers count)) ∧
      messageContentAsString (entry (sampleMessage [] (ascii "f") (nestedText count))
        (ascii "content")) = [] ∧
      rewriteAssistantToolCalls (sampleMessage [] (ascii "f") (nestedText count)) =
        some (sampleRewritten [] (ascii "f") (nestedText count)) ∧
      parseToolCallsFromText (fun _ => ascii "tc") (stringOf (entry
        (sampleRewritten [] (ascii "f") (nestedText count)) (ascii "content"))) = [] := by
  obtain ⟨count, deepest⟩ : ∃ count, count + 1 = maxNestingDepth := ⟨9999, rfl⟩
  refine ⟨count, deepest, ?_, sample_listed, sample_functions, ?_, sample_content,
    sample_rewrites, deep_call_dropped deepest⟩
  · exact sample_decoded .nil (well_formed_literal (by decide))
      (well_formed_ascii (nested_text_ascii count))
  · exact nested_text_decodes (Nat.lt_of_succ_le (Nat.le_of_eq deepest))

end Sample

end Gocoon.ToolCallHistory
