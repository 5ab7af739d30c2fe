import Gocoon.GoStrings
import Gocoon.JsonValues
import Gocoon.TlPrimitives

/-!
# Translating tool calls to and from tagged text

The runner's `tools_translate.go`. A request with tools is rewritten for a proxy that knows
none: the definitions go into the system message, earlier calls and their results become text
between tags, and the fields the proxy refuses are dropped. In the other direction the calls
are read out of the model's text. `json.Marshal` cannot fail on values that were decoded, so
its error paths are left out. An index into a text is kept as the text from there on.
-/

namespace Gocoon.ToolTranslation

open Gocoon.LittleEndianBytes
open Gocoon.TlPrimitives (GoString ascii)
open Gocoon.JsonText
open Gocoon.JsonValues
open Gocoon.GoStrings

set_option autoImplicit false

/-- The floats together with the one float constant of the source. -/
structure RunnerFloats extends Floats where
  defaultPresencePenalty : Number
  penaltyLiteral : parseFloat (ascii "1.5") = some defaultPresencePenalty

abbrev Object (floats : Floats) := List (GoString × Any floats)

def toolPromptPreamble : GoString :=
  ascii "\n\n# Tools\n\n" ++
  ascii "You may call one or more functions to " ++ ascii "assist with the user query.\n\n" ++
  ascii "You are provided with function signatures " ++
  ascii "within <tools></tools> XML tags:\n" ++
  ascii "<tools>\n"

def toolPromptPostamble : GoString :=
  ascii "</tools>\n\n" ++
  ascii "For each function call, return a json object " ++
  ascii "with function name and arguments " ++
  ascii "within <tool_call></tool_call> XML tags:\n" ++
  ascii "<tool_call>\n" ++
  ascii "\x7b\"name\": <function-name>, " ++ ascii "\"arguments\": <args-json-object>\x7d" ++
  ascii "\n" ++
  ascii "</tool_call>"

def toolCallOpenTag : GoString := ascii "<tool_call>"
def toolCallCloseTag : GoString := ascii "</tool_call>"
def toolResponseOpenTag : GoString := ascii "<tool_response>"
def toolResponseCloseTag : GoString := ascii "</tool_response>"
def thinkOpenTag : GoString := ascii "<think>"
def thinkCloseTag : GoString := ascii "</think>"

def newline : GoString := [0x0A]

def unsupportedFields : List GoString :=
  [ascii "tools", ascii "tool_choice", ascii "parallel_tool_calls", ascii "store",
    ascii "web_search_options", ascii "safety_identifier", ascii "service_tier",
    ascii "metadata", ascii "modalities", ascii "prompt_cache_key", ascii "stream_options"]

/-- A request has tools unless the probe fails to decode or finds no items. -/
def requestHasTools (body : GoString) : Bool :=
  match structMembers body with
  | .error _ => false
  | .ok members =>
      let (tools, failed) := decodeField (ascii "tools") storeSlice [] members
      !failed && decide (0 < tools.length)

section Messages

variable {floats : Floats}

/-- `object[key]`, which is nil for a missing key. -/
def entry (object : Object floats) (key : GoString) : Any floats :=
  (object.lookup key).getD .null

/-- `value.(string)` with the zero value for every other type. -/
def stringOf : Any floats → GoString
  | .str value => value
  | _ => []

/-- One part of a message's content behind what the builder holds. -/
def appendPart (builder : GoString) (part : Any floats) : GoString :=
  match part with
  | .obj fields =>
      if stringOf (entry fields (ascii "type")) ≠ ascii "text" then builder
      else
        let text := stringOf (entry fields (ascii "text"))
        if text = [] then builder
        else if builder.length > 0 then builder ++ newline ++ text
        else builder ++ text
  | _ => builder

def messageContentAsString : Any floats → GoString
  | .str content => content
  | .arr parts => parts.foldl appendPart []
  | _ => []

/-- The name and the arguments text of a tool call that is an object with a function. -/
def callFunction (call : Any floats) : Option (GoString × GoString) :=
  match call with
  | .obj fields =>
      match entry fields (ascii "function") with
      | .obj function =>
          some (stringOf (entry function (ascii "name")),
            stringOf (entry function (ascii "arguments")))
      | _ => none
  | _ => none

/-- Arguments that are no JSON are passed on as a string. -/
def callObject (name arguments : GoString) : Object floats :=
  let decoded : Any floats := match unmarshal floats arguments with
    | some value => value
    | none => .str arguments
  insertKey (ascii "arguments") decoded [(ascii "name", .str name)]

def callBlock (json : GoString) : GoString :=
  toolCallOpenTag ++ newline ++ json ++ newline ++ toolCallCloseTag

def appendCall (builder : GoString) (call : Any floats) : GoString :=
  match callFunction call with
  | none => builder
  | some (name, arguments) =>
      let block := callBlock (marshal floats (.obj (callObject name arguments)))
      if builder.length > 0 then builder ++ newline ++ block else builder ++ block

def rewriteAssistantToolCalls (message : Object floats) : Option (Object floats) :=
  match entry message (ascii "tool_calls") with
  | .arr (call :: calls) =>
      let existing := messageContentAsString (entry message (ascii "content"))
      let content := (call :: calls).foldl appendCall existing
      some (deleteKey (ascii "tool_calls")
        (insertKey (ascii "content") (.str content) message))
  | _ => none

def rewriteToolMessage (message : Object floats) : Object floats :=
  let content := messageContentAsString (entry message (ascii "content"))
  let safe := replaceAll content (ascii "]]>") (ascii "]]]]><![CDATA[>")
  let wrapped := toolResponseOpenTag ++ ascii "\n<![CDATA[" ++ safe ++ ascii "]]>\n" ++
    toolResponseCloseTag
  ofMembers [(ascii "role", .str (ascii "user")), (ascii "content", .str wrapped)]

/-- One message of the history, and whether a system message has been seen. -/
def rewriteMessage (injection : GoString) (sysFound : Bool) (message : Any floats) :
    Any floats × Bool :=
  match message with
  | .obj fields =>
      let role := stringOf (entry fields (ascii "role"))
      if role = ascii "system" ∧ sysFound = false then
        let existing := messageContentAsString (entry fields (ascii "content"))
        (.obj (insertKey (ascii "content") (.str (existing ++ injection)) fields), true)
      else if role = ascii "assistant" then
        (.obj ((rewriteAssistantToolCalls fields).getD fields), sysFound)
      else if role = ascii "tool" then (.obj (rewriteToolMessage fields), sysFound)
      else (.obj fields, sysFound)
  | other => (other, sysFound)

def rewriteHistoryMessages (injection : GoString) :
    Bool → List (Any floats) → List (Any floats) × Bool
  | sysFound, [] => ([], sysFound)
  | sysFound, message :: rest =>
      let (rewritten, found) := rewriteMessage injection sysFound message
      let (others, final) := rewriteHistoryMessages injection found rest
      (rewritten :: others, final)

def buildToolInjection (tools : List (Any floats)) : GoString :=
  toolPromptPreamble ++ tools.flatMap (fun tool => marshal floats tool ++ newline) ++
    toolPromptPostamble

/-- `value.([]any)` with nil for every other type. -/
def itemsOf : Any floats → List (Any floats)
  | .arr items => items
  | _ => []

end Messages

inductive TranslateError where
  | decodeBody (cause : DecodeError)
  deriving DecidableEq

section Requests

variable (floats : RunnerFloats)

/-- The history with the tool definitions in its system message, which is made if there is
none. -/
def translateMessages (object : Object floats.toFloats) (tools : List (Any floats.toFloats)) :
    List (Any floats.toFloats) :=
  let injection := buildToolInjection tools
  let (rewritten, sysFound) :=
    rewriteHistoryMessages injection false (itemsOf (entry object (ascii "messages")))
  if sysFound then rewritten
  else .obj (ofMembers [(ascii "role", .str (ascii "system")),
    (ascii "content", .str (trimLeft injection 0x0A))]) :: rewritten

def dropUnsupported (object : Object floats.toFloats) : Object floats.toFloats :=
  unsupportedFields.foldl (fun object field => deleteKey field object) object

def defaultPenalty (object : Object floats.toFloats) : Object floats.toFloats :=
  match object.lookup (ascii "presence_penalty") with
  | some _ => object
  | none => insertKey (ascii "presence_penalty") (.num floats.defaultPresencePenalty) object

/-- The object of a request whose tools are `tools`, rewritten step by step. -/
def translateObject (object : Object floats.toFloats) (tools : List (Any floats.toFloats)) :
    Object floats.toFloats :=
  let object := insertKey (ascii "messages") (.arr (translateMessages floats object tools)) object
  let object := dropUnsupported floats object
  let object := insertKey (ascii "stream") (.bool false) object
  defaultPenalty floats object

def translateRequestBody (body : GoString) : Except TranslateError GoString :=
  match unmarshalMap floats.toFloats body with
  | .error cause => .error (.decodeBody cause)
  | .ok none => .ok body
  | .ok (some object) =>
      match object.lookup (ascii "tools") with
      | none => .ok body
      | some (.arr (tool :: tools)) =>
          .ok (marshal floats.toFloats (.obj (translateObject floats object (tool :: tools))))
      | some _ => .ok (marshal floats.toFloats
          (.obj (deleteKey (ascii "tool_choice") (deleteKey (ascii "tools") object))))

end Requests

/-! ## Reading calls out of text -/

structure ExtractedCall where
  id : GoString
  name : GoString
  arguments : GoString
  deriving DecidableEq

/-- The loop of `extractJSONObject`, from some byte on. -/
def matchBraces (depth : Int) (inString escaped : Bool) : GoString → Option GoString
  | [] => none
  | byte :: rest =>
      let continued (depth : Int) (inString escaped : Bool) : Option GoString :=
        (matchBraces depth inString escaped rest).map fun found => byte :: found
      if escaped then continued depth inString false
      else if inString then
        if byte = backslash then continued depth inString true
        else if byte = quoteMark then continued depth false escaped
        else continued depth inString escaped
      else if byte = quoteMark then continued depth true escaped
      else if byte = openBrace then continued (depth + 1) inString escaped
      else if byte = closeBrace then
        if depth - 1 = 0 then some [byte] else continued (depth - 1) inString escaped
      else continued depth inString escaped

def extractJSONObject (text : GoString) (startIdx : Nat) : Option GoString :=
  if (text.drop startIdx).head? = some openBrace then
    matchBraces 0 false false (text.drop startIdx)
  else none

/-- The text without the spans from an open tag to the next close tag. An open tag that is
never closed takes everything behind it along. -/
def stripSpans (openTag closeTag : GoString) : Nat → GoString → GoString
  | 0, text => text
  | fuel + 1, text =>
      match index openTag text with
      | none => text
      | some start =>
          text.take start ++
            match index closeTag (text.drop start) with
            | none => []
            | some closeRel =>
                stripSpans openTag closeTag fuel
                  (text.drop (start + closeRel + closeTag.length))

def stripThinkBlocks (text : GoString) : GoString :=
  stripSpans thinkOpenTag thinkCloseTag text.length text

def stripThinkAndToolCalls (text : GoString) : GoString :=
  let visible := stripThinkBlocks text
  trimSpace (stripSpans toolCallOpenTag toolCallCloseTag visible.length visible)

/-- The struct that a call is decoded into: the name and the arguments text. -/
def decodeCall (raw : GoString) : Option (GoString × GoString) :=
  match structMembers raw with
  | .error _ => none
  | .ok members =>
      let (name, failed) := decodeField (ascii "name") storeString [] members
      let (arguments, _) := decodeField (ascii "arguments") storeRaw [] members
      if failed ∨ name = [] then none
      else
        let trimmed := trimSpace arguments
        some (name, if trimmed = [] ∨ trimmed = ascii "null" then ascii "\x7b\x7d" else trimmed)

/-- The call in the tag pair whose content starts the text and ends at `closeIdx`. -/
def callInBlock (content : GoString) (closeIdx : Nat) : Option (GoString × GoString) :=
  (index [openBrace] (content.take closeIdx)).bind fun braceRel =>
    (extractJSONObject content braceRel).bind decodeCall

/-- The loop over the tag pairs. `newID` gives the random identifiers in the order in which
they are drawn. -/
def collectCalls (newID : Nat → GoString) :
    Nat → List ExtractedCall → GoString → List ExtractedCall
  | 0, calls, _ => calls
  | fuel + 1, calls, text =>
      match index toolCallOpenTag text with
      | none => calls
      | some start =>
          let content := text.drop (start + toolCallOpenTag.length)
          match index toolCallCloseTag content with
          | none => calls
          | some closeIdx =>
              let rest := content.drop (closeIdx + toolCallCloseTag.length)
              match callInBlock content closeIdx with
              | none => collectCalls newID fuel calls rest
              | some (name, arguments) =>
                  collectCalls newID fuel
                    (calls ++ [⟨newID calls.length, name, arguments⟩]) rest

def parseToolCallsFromText (newID : Nat → GoString) (text : GoString) : List ExtractedCall :=
  let cleaned := stripThinkBlocks text
  collectCalls newID cleaned.length [] cleaned

end Gocoon.ToolTranslation
