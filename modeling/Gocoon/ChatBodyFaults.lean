import Gocoon.ForwardedRequest

/-!
# Which bodies crash the chat handler

The rewriting steps decode the body into a map variable, which stays nil when the body is
`null`. Reading from a nil map and deleting from it are harmless, assigning to it panics.
Here every map that the steps assign to is such a variable and every assignment can panic, in
`translateRequestBody` and in the messages below it as well; on the maps that the
translation writes to, this agrees with the model that leaves the panics out.
-/

namespace Gocoon.ChatBodyFaults

open Gocoon.GoProgram
open Gocoon.TlPrimitives (GoString ascii)
open Gocoon.JsonText
open Gocoon.JsonPrinting
open Gocoon.JsonValues
open Gocoon.ToolTranslation
open Gocoon.ChatPassthrough
open Gocoon.ForwardedRequest

set_option autoImplicit false

abbrev MapVar (floats : Floats) := Option (Object floats)

section Maps

variable {floats : Floats} {Err : Type}

def readKey (map : MapVar floats) (key : GoString) : Option (Any floats) :=
  map.bind fun object => object.lookup key

def assignKey (key : GoString) (value : Any floats) :
    MapVar floats → Except (Fault Err) (MapVar floats)
  | none => .error .panicked
  | some object => .ok (some (insertKey key value object))

def removeKey (key : GoString) (map : MapVar floats) : MapVar floats := map.map (deleteKey key)

/-- The map as an `any`; a nil map is marshalled as `null`. -/
def mapAny : MapVar floats → Any floats
  | none => .null
  | some object => .obj object

end Maps

section Steps

variable {floats : Floats} {Err : Type}

def assistantSteps (message : MapVar floats) : Except (Fault Err) (Option (MapVar floats)) :=
  match (readKey message (ascii "tool_calls")).getD .null with
  | .arr (call :: calls) => do
      let existing := messageContentAsString ((readKey message (ascii "content")).getD .null)
      let written ← assignKey (ascii "content") (.str ((call :: calls).foldl appendCall existing))
        message
      pure (some (removeKey (ascii "tool_calls") written))
  | _ => pure none

def messageSteps (injection : GoString) (sysFound : Bool) (message : Any floats) :
    Except (Fault Err) (Any floats × Bool) :=
  match message with
  | .obj fields => do
      let map : MapVar floats := some fields
      let role := stringOf ((readKey map (ascii "role")).getD .null)
      if role = ascii "system" ∧ sysFound = false then
        let existing := messageContentAsString ((readKey map (ascii "content")).getD .null)
        let written ← assignKey (ascii "content") (.str (existing ++ injection)) map
        pure (mapAny written, true)
      else if role = ascii "assistant" then
        let rewritten ← assistantSteps map
        pure (mapAny (rewritten.getD map), sysFound)
      else if role = ascii "tool" then pure (.obj (rewriteToolMessage fields), sysFound)
      else pure (mapAny map, sysFound)
  | other => pure (other, sysFound)

def historySteps (injection : GoString) :
    Bool → List (Any floats) → Except (Fault Err) (List (Any floats) × Bool)
  | sysFound, [] => pure ([], sysFound)
  | sysFound, message :: rest => do
      let (rewritten, found) ← messageSteps injection sysFound message
      let (others, final) ← historySteps injection found rest
      pure (rewritten :: others, final)

theorem assistant_steps_eq (fields : Object floats) :
    (assistantSteps (some fields) : Except (Fault Err) _) =
      .ok ((rewriteAssistantToolCalls fields).map some) := by
  unfold assistantSteps rewriteAssistantToolCalls
  have reads : ((readKey (some fields) (ascii "tool_calls")).getD .null : Any floats) =
    entry fields (ascii "tool_calls") := rfl
  rw [reads]
  cases entry fields (ascii "tool_calls") with
  | arr calls => cases calls <;> rfl
  | null | bool | num | str | obj => rfl

theorem message_steps_eq (injection : GoString) (sysFound : Bool) (message : Any floats) :
    (messageSteps injection sysFound message : Except (Fault Err) _) =
      .ok (rewriteMessage injection sysFound message) := by
  cases message with
  | obj fields =>
      have role : stringOf ((readKey (some fields) (ascii "role")).getD .null : Any floats) =
        stringOf (entry fields (ascii "role")) := rfl
      simp only [messageSteps, rewriteMessage, role, assistant_steps_eq]
      split_ifs
      · rfl
      · cases rewriteAssistantToolCalls fields <;> rfl
      · rfl
      · rfl
  | null | bool | num | str | arr => rfl

theorem history_steps_eq (injection : GoString) (messages : List (Any floats))
    (sysFound : Bool) :
    (historySteps injection sysFound messages : Except (Fault Err) _) =
      .ok (rewriteHistoryMessages injection sysFound messages) := by
  induction messages generalizing sysFound with
  | nil => rfl
  | cons message rest induction =>
      rw [historySteps, message_steps_eq]
      change (historySteps injection _ rest >>= fun _ => _) = _
      rw [induction]
      rfl

end Steps

section Bodies

variable (floats : RunnerFloats)

def penaltySteps (object : MapVar floats.toFloats) :
    Except (Fault TranslateError) (MapVar floats.toFloats) :=
  match readKey object (ascii "presence_penalty") with
  | some _ => pure object
  | none => assignKey (ascii "presence_penalty") (.num floats.defaultPresencePenalty) object

/-- The rewriting of a request whose tools are `tools`, assignment by assignment. -/
def objectSteps (tools : List (Any floats.toFloats)) (object : MapVar floats.toFloats) :
    Except (Fault TranslateError) (MapVar floats.toFloats) := do
  let injection := buildToolInjection tools
  let messages := itemsOf ((readKey object (ascii "messages")).getD .null)
  let (rewritten, sysFound) ← historySteps injection false messages
  let rewritten := if sysFound then rewritten
    else .obj (ofMembers [(ascii "role", .str (ascii "system")),
      (ascii "content", .str (GoStrings.trimLeft injection 0x0A))]) :: rewritten
  let object ← assignKey (ascii "messages") (.arr rewritten) object
  let object := unsupportedFields.foldl (fun object field => removeKey field object) object
  let object ← assignKey (ascii "stream") (.bool false) object
  penaltySteps floats object

/-- `translateRequestBody` on a map variable. -/
def translateSteps (body : GoString) : Except (Fault TranslateError) GoString :=
  match unmarshalMap floats.toFloats body with
  | .error cause => .error (.returned (.decodeBody cause))
  | .ok object =>
      match readKey object (ascii "tools") with
      | none => pure body
      | some (.arr (tool :: tools)) => do
          let translated ← objectSteps floats (tool :: tools) object
          pure (marshal floats.toFloats (mapAny translated))
      | some _ =>
          pure (marshal floats.toFloats
            (mapAny (removeKey (ascii "tool_choice") (removeKey (ascii "tools") object))))

theorem foldl_remove (fields : List GoString) (object : Object floats.toFloats) :
    fields.foldl (fun object field => removeKey field object) (some object) =
      some (fields.foldl (fun object field => deleteKey field object) object) := by
  induction fields generalizing object with
  | nil => rfl
  | cons field rest induction => exact induction (deleteKey field object)

theorem penalty_steps_eq (object : Object floats.toFloats) :
    penaltySteps floats (some object) = .ok (some (defaultPenalty floats object)) := by
  have penalty : readKey (some object) (ascii "presence_penalty") =
    object.lookup (ascii "presence_penalty") := rfl
  rw [penaltySteps, defaultPenalty, penalty]
  cases object.lookup (ascii "presence_penalty") <;> rfl

theorem object_steps_eq (tools : List (Any floats.toFloats)) (object : Object floats.toFloats) :
    objectSteps floats tools (some object) = .ok (some (translateObject floats object tools)) := by
  have messages : ((readKey (some object) (ascii "messages")).getD .null : Any floats.toFloats) =
    entry object (ascii "messages") := rfl
  simp only [objectSteps, messages, history_steps_eq, Except.bind, bind, assignKey, foldl_remove,
    penalty_steps_eq]
  rfl

def returns {Err Value : Type} : Except Err Value → Except (Fault Err) Value
  | .ok value => .ok value
  | .error cause => .error (.returned cause)

/-- The translation never assigns to a nil map, as a nil map has no tools. -/
theorem translate_steps_eq (body : GoString) :
    translateSteps floats body = returns (translateRequestBody floats body) := by
  unfold translateSteps translateRequestBody
  cases read : unmarshalMap floats.toFloats body with
  | error cause => rfl
  | ok map =>
      cases map with
      | none => rfl
      | some object =>
          have tools : readKey (some object) (ascii "tools") = object.lookup (ascii "tools") := rfl
          simp only [tools]
          rcases object.lookup (ascii "tools") with _ | _ | _ | _ | _ | (_ | ⟨tool, rest⟩) | _
          case some.arr.cons =>
              simp only [object_steps_eq]
              rfl
          all_goals rfl

theorem finish_steps_eq (routed : GoString) :
    (if requestHasTools routed then raise .toolsTranslate (translateSteps floats routed)
      else raise .forceNonStream (forceNonStream floats.toFloats routed)) =
      finishBody floats routed := by
  rw [finishBody, translate_steps_eq]
  split_ifs
  · cases translateRequestBody floats routed <;> rfl
  · rfl

/-- The rewriting steps in the order of the handler. -/
def rewriteBody (body model : GoString) : Except (Fault ChatError) GoString := do
  let routed ← routeBody floats body model
  if requestHasTools routed then raise .toolsTranslate (translateSteps floats routed)
  else raise .forceNonStream (forceNonStream floats.toFloats routed)

/-- The literal `null` with white space around it. -/
def NullBody (body : GoString) : Prop :=
  ∃ front back, SpaceText front ∧ SpaceText back ∧ body = front ++ ascii "null" ++ back

theorem null_text {limit : Nat} {text : GoString} (denotes : ValueText limit text .null) :
    text = ascii "null" := by
  cases limit with
  | zero =>
      cases denotes
      rfl
  | succ limit =>
      rcases denotes with scalar | nested
      · cases scalar
        rfl
      · cases nested

theorem parse_null_iff (body : GoString) : parse body = some .null ↔ NullBody body := by
  constructor
  · intro parsed
    obtain ⟨⟨value, rest⟩, read, ended⟩ := Option.bind_eq_some_iff.mp parsed
    dsimp only at ended
    split_ifs at ended with blank
    cases ended
    obtain ⟨front, leading, spaces⟩ := skip_space_split body
    obtain ⟨back, trailing, spacesBehind⟩ := skip_space_split rest
    obtain ⟨part, split, denotes⟩ := parse_value_sound _ _ _ _ read
    rw [blank, List.append_nil] at trailing
    rw [split, null_text denotes, ← List.append_assoc, trailing] at leading
    exact ⟨front, back, spaces, spacesBehind, leading⟩
  · intro ⟨front, back, leading, trailing, spelled⟩
    have skipped : skipSpace body = ascii "null" ++ back := by
      rw [spelled, List.append_assoc, skipSpace, List.dropWhile_append_of_pos leading]
      rfl
    have blank : skipSpace back = [] := List.dropWhile_eq_nil_iff.mpr trailing
    have read : parseValue maxNestingDepth (ascii "null" ++ back) = some (.null, back) := by
      have word := keyword_append [0x6E, 0x75, 0x6C, 0x6C] back
      have literal : ascii "null" ++ back = 0x6E :: ([0x75, 0x6C, 0x6C] ++ back) := rfl
      rw [List.cons_append] at word
      rw [literal, parse_value_scalar (by decide) (by decide), parseScalar,
        parse_string_other (by decide), word]
    rw [parse, skipped, read, Option.bind_some]
    exact if_pos blank

theorem set_body_key_panics_iff (key : GoString) (value : Any floats.toFloats) (body : GoString) :
    setBodyKey floats.toFloats key value body = .error .panicked ↔ parse body = some .null := by
  rw [← unmarshal_map_nil_iff floats.toFloats, setBodyKey]
  cases unmarshalMap floats.toFloats body with
  | error cause => simp
  | ok map => cases map <;> simp

theorem set_body_key_not_null {key : GoString} {value : Any floats.toFloats}
    {body written : GoString} (set : setBodyKey floats.toFloats key value body = .ok written) :
    parse written ≠ some .null := by
  unfold setBodyKey at set
  split at set
  · cases set
  · cases set
  · cases set
    rw [marshal, parse_printed floats.formatLiteral]
    split_ifs <;> simp [mapValue]

theorem raise_panics_iff {Err Value : Type} (wrap : Err → ChatError)
    (outcome : Except (Fault Err) Value) :
    raise wrap outcome = .error .panicked ↔ outcome = .error .panicked := by
  rcases outcome with (cause | _) | value <;> simp [raise]

theorem finish_panics_iff (routed : GoString) :
    finishBody floats routed = .error .panicked ↔ parse routed = some .null := by
  unfold finishBody
  split_ifs with tools
  · constructor
    · intro panics
      split at panics <;> cases panics
    · intro null
      rw [null_without_tools floats ((unmarshal_map_nil_iff floats.toFloats routed).mpr null)]
        at tools
      cases tools
  · rw [raise_panics_iff]
    exact set_body_key_panics_iff floats (ascii "stream") (.bool false) routed

theorem rewrite_panics_iff (body model : GoString) :
    rewriteBody floats body model = .error .panicked ↔ parse body = some .null := by
  have steps : rewriteBody floats body model = routeBody floats body model >>= finishBody floats :=
    bind_congr fun routed => finish_steps_eq floats routed
  have sets := set_body_key_panics_iff floats (ascii "model") (.str model) body
  rw [steps, routeBody]
  split_ifs with routes
  · cases set : rewriteJSONModel floats.toFloats body model with
    | error fault =>
        rw [rewriteJSONModel] at set
        rw [← sets, set]
        cases fault <;> simp [raise, bind, Except.bind]
    | ok written =>
        rw [rewriteJSONModel] at set
        rw [← sets, set]
        change finishBody floats written = .error .panicked ↔ _
        rw [finish_panics_iff]
        simpa using set_body_key_not_null floats set
  · exact finish_panics_iff floats body

/-- Every body but `null` is rewritten or refused, whatever the model. -/
theorem chat_body_survives_iff (body model : GoString) :
    ((∃ rewritten, rewriteBody floats body model = .ok rewritten) ∨
        ∃ error, rewriteBody floats body model = .error (.returned error)) ↔
      ¬ NullBody body := by
  rw [← parse_null_iff, ← rewrite_panics_iff floats body model]
  rcases rewriteBody floats body model with (error | _) | rewritten <;> simp

theorem null_body_crashes :
    rewriteBody literalRunnerFloats (ascii "null") (ascii "qwen") = .error .panicked := by
  apply (rewrite_panics_iff _ _ _).mpr
  apply (parse_null_iff _).mpr
  exact ⟨[], [], List.forall_mem_nil _, List.forall_mem_nil _, rfl⟩

end Bodies

end Gocoon.ChatBodyFaults
