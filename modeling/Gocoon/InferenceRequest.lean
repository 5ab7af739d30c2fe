import Gocoon.CocoonSchema
import Gocoon.GoMaps

/-!
# The inference request

`encodeRunQueryEx` wraps an `http.request` into the `query` field of `client.runQueryEx`,
and `SendPacket` wraps that into a `tcp.packet`. Only the outermost size is checked. What
is written is the serialisation of schema values, and an accepted frame leaves no room for
an inner length that its field could not hold, so that the three layers parse back.
-/

namespace Gocoon.InferenceRequest

open Gocoon.LittleEndianBytes
open Gocoon.TlPrimitives
open Gocoon.TlFrame
open Gocoon.TlTcpPacket
open Gocoon.TlTypes
open Gocoon.GoMaps
open Gocoon.TypeLanguage
open Gocoon.CocoonSchema

set_option autoImplicit false

abbrev HeaderMap := GoMap GoString GoString

/-- `int` and `time.Duration` are 64-bit words; a duration counts nanoseconds. -/
structure Query where
  model : GoString
  body : List Byte
  path : GoString
  headers : HeaderMap
  maxCoefficient : Int64
  maxTokens : Int64
  timeout : Int64
  enableDebug : Bool

/-- `strconv.Itoa` on a length. -/
def itoa (value : Nat) : GoString :=
  (Nat.toDigits 10 value).map fun digit => UInt8.ofNat digit.toNat

/-- `Duration.Seconds`. -/
def seconds (duration : Int64) : Float :=
  Float.ofInt (duration / 1000000000).toInt + Float.ofInt (duration % 1000000000).toInt / 1e9

def contentType : GoString := ascii "Content-Type"

def contentLength : GoString := ascii "Content-Length"

/-- One round of the loop that copies the caller's headers. -/
def copyHeader (headers : HeaderMap) (entry : Entry GoString GoString) : HeaderMap :=
  if entry.1 ≠ [] ∧ entry.2 ≠ [] then headers.insert entry.1 entry.2 else headers

/-- The map `headers` before it is written. `order` is the order of the copying loop. -/
def requestHeaders (order : MapOrder GoString GoString) (q : Query) : HeaderMap :=
  let copied := (order.visit q.headers).foldl copyHeader ∅
  let typed :=
    if (copied.lookup contentType).getD [] = [] then
      copied.insert contentType (ascii "application/json")
    else copied
  typed.insert contentLength (itoa q.body.length)

def writeHeader (writer : Writer) (entry : Entry GoString GoString) : Writer :=
  (writer.writeString entry.1).writeString entry.2

def requestPath (q : Query) : GoString :=
  if q.path = [] then ascii "/v1/chat/completions" else q.path

/-- The two loops over a map take the orders `copying` and `writing`. -/
def encodeHTTPRequest (copying writing : MapOrder GoString GoString) (q : Query) : List Byte :=
  let headers := requestHeaders copying q
  let opened := (((newWriter.writeUint32 idHTTPRequest).writeString (ascii "POST")).writeString
    (requestPath q)).writeString (ascii "HTTP/1.0")
  let counted := opened.writeUint32 (UInt32.ofNat headers.entries.length)
  (((writing.visit headers).foldl writeHeader counted).writeBytes q.body).buf

def encodeRunQueryEx (copying writing : MapOrder GoString GoString) (q : Query)
    (reqID : FixedBytes 32) (minCfgVer : Int32) : List Byte :=
  let maxCoefficient := if q.maxCoefficient = 0 then 4000 else q.maxCoefficient
  let maxTokens := if q.maxTokens = 0 then 10000 else q.maxTokens
  let timeout := if q.timeout ≤ 0 then 300000000000 else q.timeout
  let requestBody := encodeHTTPRequest copying writing q
  let named := ((newWriter.writeUint32 idClientRunQueryEx).writeString q.model).writeBytes
    requestBody
  let limited := (named.writeInt32 maxCoefficient.toInt32).writeInt32 maxTokens.toInt32
  let timed := limited.writeDouble (seconds timeout * 0.95).toBits
  let versioned := (timed.writeInt256 reqID).writeInt32 minCfgVer
  let flagged := versioned.writeFlags (if q.enableDebug then 0x1 else 0)
  (if q.enableDebug then flagged.writeBool true else flagged).buf

section Headers

variable (order : MapOrder GoString GoString) (q : Query)

def headerValue (name : GoString) : Option GoString :=
  if name = contentLength then some (itoa q.body.length)
  else
    match (q.headers.lookup name).filter fun value => name ≠ [] ∧ value ≠ [] with
    | some value => some value
    | none => if name = contentType then some (ascii "application/json") else none

theorem copied_lookup (visited : List (Entry GoString GoString)) (distinct : visited.NodupKeys)
    (headers : HeaderMap) (name : GoString) :
    (visited.foldl copyHeader headers).lookup name =
      match (visited.dlookup name).filter fun value => name ≠ [] ∧ value ≠ [] with
      | some value => some value
      | none => headers.lookup name := by
  induction visited generalizing headers with
  | nil => rfl
  | cons entry visited ih =>
      obtain ⟨entryName, value⟩ := entry
      obtain ⟨fresh, restDistinct⟩ := List.nodupKeys_cons.mp distinct
      rw [List.foldl_cons, ih restDistinct]
      by_cases same : name = entryName
      · subst same
        rw [List.dlookup_eq_none.mpr fresh, List.dlookup_cons_eq]
        by_cases kept : name ≠ [] ∧ value ≠ []
        · rw [copyHeader, if_pos kept]
          simp [AList.lookup_insert, Option.filter, kept]
        · rw [copyHeader, if_neg kept]
          simp [Option.filter, kept]
      · rw [List.dlookup_cons_ne _ _ same]
        have unchanged : (copyHeader headers ⟨entryName, value⟩).lookup name =
            headers.lookup name := by
          unfold copyHeader
          by_cases kept : entryName ≠ [] ∧ value ≠ []
          · rw [if_pos kept, AList.lookup_insert_ne same]
          · rw [if_neg kept]
        rw [unchanged]

def givenValue (name : GoString) : Option GoString :=
  (q.headers.lookup name).filter fun value => name ≠ [] ∧ value ≠ []

theorem copied_given (name : GoString) :
    ((order.visit q.headers).foldl copyHeader ∅).lookup name = givenValue q name := by
  rw [copied_lookup _ (visit_distinct order q.headers), visit_lookup, AList.lookup_empty]
  unfold givenValue
  cases (q.headers.lookup name).filter _ <;> rfl

theorem given_nonempty {name value : GoString} (given : givenValue q name = some value) :
    value ≠ [] := by
  have kept := (Option.filter_eq_some_iff.mp given).2
  simp only [decide_eq_true_eq] at kept
  exact kept.2

theorem request_headers_lookup (name : GoString) :
    (requestHeaders order q).lookup name = headerValue q name := by
  have copied := copied_given order q
  unfold requestHeaders headerValue
  dsimp only
  by_cases isLength : name = contentLength
  · rw [if_pos isLength, isLength, AList.lookup_insert]
  · rw [if_neg isLength, AList.lookup_insert_ne isLength]
    change _ = match givenValue q name with
      | some value => some value
      | none => if name = contentType then some (ascii "application/json") else none
    cases typed : givenValue q contentType with
    | none =>
        rw [copied, typed, Option.getD_none, if_pos rfl]
        by_cases isType : name = contentType
        · rw [isType, AList.lookup_insert, typed, if_pos rfl]
        · rw [AList.lookup_insert_ne isType, copied, if_neg isType]
          cases givenValue q name <;> rfl
    | some value =>
        rw [copied, typed, Option.getD_some, if_neg (given_nonempty q typed), copied]
        by_cases isType : name = contentType
        · rw [isType, typed]
        · rw [if_neg isType]
          cases givenValue q name <;> rfl

def headerVector (writing : MapOrder GoString GoString) (headers : HeaderMap) : List HttpHeader :=
  (writing.visit headers).map fun entry => ⟨entry.1, entry.2⟩

theorem header_vector_distinct (writing : MapOrder GoString GoString) (headers : HeaderMap) :
    ((headerVector writing headers).map HttpHeader.name).Nodup := by
  rw [headerVector, List.map_map]
  exact visit_distinct writing headers

theorem mem_header_vector (writing : MapOrder GoString GoString) (header : HttpHeader) :
    header ∈ headerVector writing (requestHeaders order q) ↔
      headerValue q header.name = some header.value := by
  rw [← request_headers_lookup order, ← mem_visit writing, headerVector, List.mem_map]
  constructor
  · rintro ⟨entry, visited, rfl⟩
    exact visited
  · intro visited
    exact ⟨_, visited, rfl⟩

end Headers

section Bytes

open Gocoon.TypeLanguage.WireType

theorem write_string_buf (writer : Writer) (text : GoString) :
    (writer.writeString text).buf = writer.buf ++ string.serialize text :=
  write_bytes_buf writer text

theorem write_headers_buf (entries : List (Entry GoString GoString)) (writer : Writer) :
    (entries.foldl writeHeader writer).buf =
      writer.buf ++ (entries.map fun entry => (⟨entry.1, entry.2⟩ : HttpHeader)).flatMap
        httpHeader.serialize := by
  induction entries generalizing writer with
  | nil => simp
  | cons entry entries ih =>
      have header : httpHeader.serialize ⟨entry.1, entry.2⟩ =
          string.serialize entry.1 ++ string.serialize entry.2 := rfl
      rw [List.foldl_cons, ih, writeHeader, write_string_buf, write_string_buf, List.map_cons,
        List.flatMap_cons, header, List.append_assoc, List.append_assoc, List.append_assoc]

variable (copying writing : MapOrder GoString GoString) (q : Query)

def requestValue : HttpRequest where
  method := ascii "POST"
  url := requestPath q
  httpVersion := ascii "HTTP/1.0"
  headers := headerVector writing (requestHeaders copying q)
  payload := q.body

theorem http_request_serialize (request : HttpRequest) :
    httpRequest.serialize request =
      putUint32 idHTTPRequest ++ (string.serialize request.method ++
        (string.serialize request.url ++ (string.serialize request.httpVersion ++
          ((vector httpHeader).serialize request.headers ++
            string.serialize request.payload)))) := by
  rw [← declared_numbers.2.1]
  rfl

theorem encode_http_request_bytes :
    encodeHTTPRequest copying writing q =
      httpRequest.serialize (requestValue copying writing q) := by
  have counted : (requestHeaders copying q).entries.length =
      (headerVector writing (requestHeaders copying q)).length := by
    rw [headerVector, List.length_map]
    exact (writing.everyEntry _).length_eq.symm
  have headers : (vector httpHeader).serialize (headerVector writing (requestHeaders copying q)) =
      putUint32 (UInt32.ofNat (headerVector writing (requestHeaders copying q)).length) ++
        (headerVector writing (requestHeaders copying q)).flatMap httpHeader.serialize := rfl
  unfold encodeHTTPRequest
  dsimp only
  rw [http_request_serialize, write_bytes_buf, write_headers_buf, counted]
  simp only [Writer.writeUint32, Writer.writeRaw, write_string_buf, newWriter, List.nil_append,
    List.append_assoc, requestValue, headers]
  rfl

def runQueryValue (reqID : FixedBytes 32) (minCfgVer : Int32) : RunQueryEx where
  modelName := q.model
  query := encodeHTTPRequest copying writing q
  maxCoefficient := (if q.maxCoefficient = 0 then 4000 else q.maxCoefficient).toInt32
  maxTokens := (if q.maxTokens = 0 then 10000 else q.maxTokens).toInt32
  timeout := (seconds (if q.timeout ≤ 0 then 300000000000 else q.timeout) * 0.95).toBits
  requestID := reqID
  minConfigVersion := minCfgVer
  flags := if q.enableDebug then 0x1 else 0
  enableDebug := if q.enableDebug then some true else none
  publicKey := none

theorem run_query_ex_serialize (call : RunQueryEx) :
    runQueryEx.serialize call =
      putUint32 idClientRunQueryEx ++ (string.serialize call.modelName ++
        (string.serialize call.query ++ (putUint32 call.maxCoefficient.toUInt32 ++
          (putUint32 call.maxTokens.toUInt32 ++ (putUint64 call.timeout ++ (call.requestID.val ++
            (putUint32 call.minConfigVersion.toUInt32 ++ (putUint32 call.flags ++
              ((gated (bit call.flags 0) CocoonSchema.bool).serialize call.enableDebug ++
                (gated (bit call.flags 1) int256).serialize call.publicKey))))))))) := rfl

theorem encode_run_query_ex_bytes (reqID : FixedBytes 32) (minCfgVer : Int32) :
    encodeRunQueryEx copying writing q reqID minCfgVer =
      runQueryEx.serialize (runQueryValue copying writing q reqID minCfgVer) := by
  have debug : ∀ writer : Writer,
      (if q.enableDebug then writer.writeBool true else writer).buf =
        writer.buf ++ (gated (bit (if q.enableDebug then 0x1 else 0) 0)
          CocoonSchema.bool).serialize (if q.enableDebug then some true else none) := by
    intro writer
    cases q.enableDebug with
    | true =>
        have shown := bool_serialize true
        rw [if_pos rfl] at shown
        exact congrArg (writer.buf ++ ·) shown.symm
    | false => exact (List.append_nil _).symm
  rw [run_query_ex_serialize]
  unfold encodeRunQueryEx
  dsimp only
  rw [debug]
  simp only [Writer.writeFlags, Writer.writeInt32, Writer.writeInt256, Writer.writeDouble,
    Writer.writeUint32, Writer.writeRaw, write_string_buf, write_bytes_buf, newWriter,
    List.nil_append, List.append_assoc, runQueryValue]
  have noKey : (gated (bit (if q.enableDebug = true then 1 else 0) 1) int256).serialize none = [] :=
    rfl
  rw [noKey, List.append_nil]
  rfl

end Bytes

section Intact

open Gocoon.TypeLanguage.WireType

variable (copying writing : MapOrder GoString GoString) (q : Query)

theorem http_header_short (header : HttpHeader) : httpHeader.ShortFits header :=
  short_pair (short_string header.name) (short_string header.value)

theorem http_header_nonempty (header : HttpHeader) : 0 < (httpHeader.serialize header).length := by
  have name : 0 < (string.serialize header.name).length := by
    unfold string
    dsimp only
    split <;> exact Nat.succ_pos _
  have both : httpHeader.serialize header =
      string.serialize header.name ++ string.serialize header.value := rfl
  rw [both, List.length_append]
  omega

theorem http_request_short (request : HttpRequest) : httpRequest.ShortFits request := by
  apply short_boxed
  apply short_view
  apply short_pair (short_string request.method)
  apply short_pair (short_string request.url)
  apply short_pair (short_string request.httpVersion)
  apply short_pair _ (short_string request.payload)
  apply short_vector
  · intro header _
    exact http_header_nonempty header
  · intro header _
    exact http_header_short header

theorem debug_fields_fit (enableDebug : Bool) :
    ((gated (bit (if enableDebug then 0x1 else 0) 0) CocoonSchema.bool).pair
      (gated (bit (if enableDebug then 0x1 else 0) 1) int256)).Fits
        (if enableDebug then some true else none, none) := by
  cases enableDebug with
  | true =>
      have debugBit : bit 1 0 = true := by decide
      have keyBit : bit 1 1 = false := by decide
      exact ⟨⟨debugBit, trivial⟩, keyBit⟩
  | false =>
      have debugBit : bit 0 0 = false := by decide
      have keyBit : bit 0 1 = false := by decide
      exact ⟨debugBit, keyBit⟩

theorem run_query_value_short (reqID : FixedBytes 32) (minCfgVer : Int32) :
    runQueryEx.ShortFits (runQueryValue copying writing q reqID minCfgVer) := by
  apply short_boxed
  apply short_view
  apply short_pair (short_string q.model)
  apply short_pair (short_string _)
  apply short_pair (fun _ => trivial)
  apply short_pair (fun _ => trivial)
  apply short_pair (fun _ => trivial)
  apply short_pair (fun _ => trivial)
  apply short_pair (fun _ => trivial)
  apply short_next (fun _ => trivial)
  intro _
  exact debug_fields_fit q.enableDebug

theorem packet_serialize (body : List Byte) :
    encodeTCPPacket body = tcpPacket.serialize body := by
  rw [encode_packet_bytes, ← declared_numbers.1]
  rfl

/-- A packet that was sent is the serialisation of a call whose query is the serialisation of
a request, and all three fit their types. -/
theorem sent_layers {faults : WriteFaults} {conn : FramedConn} {sink : Sink}
    {reqID : FixedBytes 32} {minCfgVer : Int32}
    (sent : (sendPacket faults conn sink
      (encodeRunQueryEx copying writing q reqID minCfgVer)).1 = none) :
    tcpPacket.Fits (encodeRunQueryEx copying writing q reqID minCfgVer) ∧
      runQueryEx.Fits (runQueryValue copying writing q reqID minCfgVer) ∧
      httpRequest.Fits (requestValue copying writing q) := by
  have bodyShort := sent_body_length sent
  have callShort := bodyShort
  rw [encode_run_query_ex_bytes] at callShort
  have callFits := run_query_value_short copying writing q reqID minCfgVer callShort
  have queryShort : (encodeHTTPRequest copying writing q).length < 2 ^ 24 := callFits.2.1
  rw [encode_http_request_bytes] at queryShort
  exact ⟨bodyShort, callFits, http_request_short _ queryShort⟩

theorem inference_request_intact (faults : WriteFaults) (conn : FramedConn) (sink : Sink)
    (copying writing : MapOrder GoString GoString) (q : Query) (reqID : FixedBytes 32)
    (minCfgVer : Int32)
    (sent : (sendPacket faults conn sink
      (encodeRunQueryEx copying writing q reqID minCfgVer)).1 = none) :
    ∃ (payload body : List Byte) (call : RunQueryEx) (request : HttpRequest),
      (sendPacket faults conn sink
          (encodeRunQueryEx copying writing q reqID minCfgVer)).2.2.written =
        sink.written ++ frameBytes conn.outSeqno payload ∧
      tcpPacket.parse payload = some (body, []) ∧
      runQueryEx.parse body = some (call, []) ∧
      httpRequest.parse call.query = some (request, []) ∧
      call.modelName = q.model ∧ call.requestID = reqID ∧ call.minConfigVersion = minCfgVer ∧
      bit call.flags 0 = q.enableDebug ∧
      call.enableDebug = (if q.enableDebug then some true else none) ∧ call.publicKey = none ∧
      request.method = ascii "POST" ∧
      request.url = (if q.path = [] then ascii "/v1/chat/completions" else q.path) ∧
      request.payload = q.body ∧
      (request.headers.map HttpHeader.name).Nodup ∧
      ∀ header, header ∈ request.headers ↔ headerValue q header.name = some header.value := by
  obtain ⟨bodyFits, callFits, requestFits⟩ := sent_layers copying writing q sent
  refine ⟨_, encodeRunQueryEx copying writing q reqID minCfgVer,
    runQueryValue copying writing q reqID minCfgVer, requestValue copying writing q,
    written_of_success sent, ?_, ?_, ?_, rfl, rfl, rfl, ?_, rfl, rfl, rfl, rfl, rfl,
    header_vector_distinct writing _, mem_header_vector copying q writing⟩
  · rw [packet_serialize]
    exact tcpPacket.parse_whole _ bodyFits
  · rw [encode_run_query_ex_bytes]
    exact runQueryEx.parse_whole _ callFits
  · change httpRequest.parse (encodeHTTPRequest copying writing q) = _
    rw [encode_http_request_bytes]
    exact httpRequest.parse_whole _ requestFits
  · change bit (if q.enableDebug then 0x1 else 0) 0 = q.enableDebug
    cases q.enableDebug <;> decide

def sampleQuery : Query where
  model := ascii "m"
  body := ascii "\x7b\x7d"
  path := []
  headers := (AList.insert (ascii "X") (ascii "1") ∅).insert (ascii "Y") []
  maxCoefficient := 0
  maxTokens := 0
  timeout := 0
  enableDebug := true

theorem sample_request_intact :
    (sendPacket noFaults newFramedConn emptySink (encodeRunQueryEx (storedOrder _ _)
      (storedOrder _ _) sampleQuery (copyInto 32 []) 7)).1 = none ∧
    ∃ (payload body : List Byte) (call : RunQueryEx) (request : HttpRequest),
      (sendPacket noFaults newFramedConn emptySink (encodeRunQueryEx (storedOrder _ _)
        (storedOrder _ _) sampleQuery (copyInto 32 []) 7)).2.2.written =
          frameBytes 0 payload ∧
      tcpPacket.parse payload = some (body, []) ∧
      runQueryEx.parse body = some (call, []) ∧
      httpRequest.parse call.query = some (request, []) ∧
      call.modelName = ascii "m" ∧ call.enableDebug = some true ∧
      ⟨ascii "X", ascii "1"⟩ ∈ request.headers ∧
      ⟨ascii "Content-Length", ascii "2"⟩ ∈ request.headers ∧
      ⟨ascii "Y", []⟩ ∉ request.headers := by
  have sent : (sendPacket noFaults newFramedConn emptySink (encodeRunQueryEx (storedOrder _ _)
      (storedOrder _ _) sampleQuery (copyInto 32 []) 7)).1 = none := by
    apply (write_frame_outcome _ _ _).mpr
    decide +kernel
  obtain ⟨payload, body, call, request, written, packet, parsed, inner, model, -, -, -, debug, -, -,
    -, -, -, headers⟩ := inference_request_intact noFaults newFramedConn emptySink
      (storedOrder _ _) (storedOrder _ _) sampleQuery (copyInto 32 []) 7 sent
  refine ⟨sent, payload, body, call, request, written, packet, parsed, inner, model, debug, ?_⟩
  rw [headers, headers, headers]
  decide +kernel

end Intact

end Gocoon.InferenceRequest
