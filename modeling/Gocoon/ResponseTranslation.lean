import Gocoon.ForwardedRequest
import Gocoon.TaggedText

/-!
# Translating a response

`translateResponseBody` takes the first choice of a response apart, reads the calls out of the
text of its message and puts the message back. With a call the text loses its think spans and
its call spans, without one only the think spans. A body that does not decode, or that has no
message there, is returned as it came.
-/

namespace Gocoon.ResponseTranslation

open Gocoon.LittleEndianBytes
open Gocoon.TlPrimitives (GoString ascii)
open Gocoon.JsonText
open Gocoon.JsonValues
open Gocoon.ToolTranslation

set_option autoImplicit false

section Model

variable (floats : Floats)

/-- One element of the `tool_calls` array. -/
def callValue (call : ExtractedCall) : Any floats :=
  let function : Object floats :=
    ofMembers [(ascii "name", .str call.name), (ascii "arguments", .str call.arguments)]
  .obj (ofMembers [(ascii "id", .str call.id), (ascii "type", .str (ascii "function")),
    (ascii "function", .obj function)])

def plainMessage (message : Object floats) (content : GoString) : Object floats :=
  insertKey (ascii "content") (.str (stripThinkBlocks content)) message

def callingMessage (message : Object floats) (content : GoString) (calls : List ExtractedCall) :
    Object floats :=
  let message := insertKey (ascii "tool_calls") (.arr (calls.map (callValue floats))) message
  insertKey (ascii "content") (.str (stripThinkAndToolCalls content)) message

def translateChoice (newID : Nat → GoString) (choice message : Object floats) : Object floats :=
  let content := stringOf (entry message (ascii "content"))
  let calls := parseToolCallsFromText newID content
  if calls.length = 0 then
    insertKey (ascii "message") (.obj (plainMessage floats message content)) choice
  else
    let choice := insertKey (ascii "message")
      (.obj (callingMessage floats message content calls)) choice
    insertKey (ascii "finish_reason") (.str (ascii "tool_calls")) choice

def translateResponseBody (newID : Nat → GoString) (body : GoString) : GoString :=
  match unmarshalMap floats body with
  | .error _ => body
  | .ok none => body
  | .ok (some object) =>
      match entry object (ascii "choices") with
      | .arr (.obj choice :: others) =>
          match entry choice (ascii "message") with
          | .obj message =>
              let choices := .obj (translateChoice floats newID choice message) :: others
              marshal floats (.obj (insertKey (ascii "choices") (.arr choices) object))
          | _ => body
      | _ => body

end Model

end Gocoon.ResponseTranslation
