import Gocoon.ProxyAnswers
import Gocoon.ProxyHandshake

/-!
# Remote calls of a ready session

`Session.PaymentStatus` and `Session.WorkerTypes` send a query over the shared transport and wait
for its answer. Any number of such calls run at once, next to the read loop, the late sends and the
garbage collection of the correlator and the shutdown of the transport. The proxy chooses every
frame, and the environment chooses ids, times, write errors and which ready case a `select` takes.

The two functions wait differently: `awaitQuery`, which `PaymentStatus` uses, also returns when the
transport is closed or its own timer fires, while `WorkerTypes` has neither case and relies on the
correlator alone. `frames`, `written` and the fields `since` and `deadline` of a call are history.
-/

namespace Gocoon.RemoteCalls

open Gocoon.LittleEndianBytes
open Gocoon.GoProgram
open Gocoon.CocoonErrors
open Gocoon.TlPrimitives
open Gocoon.TlTypes
open Gocoon.TlTcpPacket
open Gocoon.QueryCorrelator
open Gocoon.ProxyAnswers
open Gocoon.ProxyHandshake (TransportState AwaitCase)

set_option autoImplicit false

inductive Request where
  | paymentStatus
  | workerTypes
  deriving DecidableEq

inductive Reply where
  | paymentStatus (status : PaymentStatus)
  | workerTypes (models : List WorkerType)
  deriving DecidableEq

namespace Request

def body : Request → List Byte
  | .paymentStatus => (newWriter.writeUint32 idClientUpdatePaymentStatus).buf
  | .workerTypes => (newWriter.writeUint32 idClientGetWorkerTypesV2).buf

def timeout : Request → Int
  | .paymentStatus => 30 * 10 ^ 9
  | .workerTypes => 10 * 10 ^ 9

def decode : Request → List Byte → Except (Fault CocoonError) Reply
  | .paymentStatus, answer => (decodePaymentStatus answer).map .paymentStatus
  | .workerTypes, answer => (decodeWorkerTypesV2 answer).map .workerTypes

/-- Whether the `select` of the call has a case for the closed transport and for a timer. -/
def watchesTransport : Request → Bool
  | .paymentStatus => true
  | .workerTypes => false

end Request

inductive CallPhase where
  | writing
  | waiting
  | returned (outcome : Except CocoonError Reply)
  deriving DecidableEq

/-- One call; `query` points to its registration, if it got one. -/
structure Call where
  request : Request
  id : QueryID
  query : Option Nat
  phase : CallPhase
  since : Nat
  deadline : Int
  deriving DecidableEq

structure Calls where
  world : Correlations
  transport : TransportState
  calls : List Call
  written : List (List Byte)
  frames : List (List Byte)
  panicked : Bool

def newCalls : Calls where
  world := newCorrelator
  transport := .opened
  calls := []
  written := []
  frames := []
  panicked := false

/-- The query a frame resolves, and with what. -/
def resolutionOf (packet : DecodedTCPPacket) : Option (QueryID × Resolution) :=
  match packet.kind with
  | .queryAnswer => some (packet.id, .answer packet.data)
  | .queryError => some (packet.id, .error (.proxy packet.errCode packet.errMsg "query"))
  | _ => none

namespace Calls

def setPhase (state : Calls) (position : Nat) (phase : CallPhase) : Calls :=
  { state with calls := state.calls.modify position fun call => { call with phase := phase } }

def finish (state : Calls) (position : Nat) (outcome : Except CocoonError Reply) : Calls :=
  state.setPhase position (.returned outcome)

/-- `transport.dispatch`, as far as queries are concerned: a `tcp.packet` goes to the streams of
the session and the other kinds are logged. -/
def dispatch (state : Calls) (payload : List Byte) (pongWritten : Bool) : Calls :=
  let seen := { state with frames := state.frames ++ [payload] }
  match decodeTCPPacket payload with
  | .error .panicked => { seen with panicked := true }
  | .error (.returned _) => seen
  | .ok packet =>
      match resolutionOf packet with
      | some (id, value) => { seen with world := (take seen.world id value).2 }
      | none =>
          if packet.kind = .ping ∧ pongWritten then
            { seen with written := seen.written ++ [encodeTCPPong packet.id] }
          else seen

/-- `transport.SendQuery` up to the registration, which is the first thing a call shares. -/
def start (state : Calls) (request : Request) (id : QueryID) (now : Int) : Calls :=
  let call query phase : Call :=
    { request, id, query, phase
      since := state.frames.length
      deadline := now + request.timeout }
  match register state.world id now request.timeout with
  | (.ok ref, world) =>
      { state with world := world, calls := state.calls ++ [call (some ref) .writing] }
  | (.error error, world) =>
      { state with
        world := world
        calls := state.calls ++ [call none (.returned (.error error))] }

def write (state : Calls) (position : Nat) (call : Call) : Option TlFrame.FrameError → Calls
  | none =>
      { state with written := state.written ++ [encodeTCPQuery call.id call.request.body] }.setPhase
        position .waiting
  | some error =>
      { state with world := (fail state.world call.id (.frame error)).2 }.finish position
        (.error (.frame error))

/-- The rest of the call once its answer has arrived. -/
def answered (state : Calls) (position : Nat) (call : Call) (answer : List Byte) : Calls :=
  match call.request.decode answer with
  | .error .panicked => { state with panicked := true }
  | .error (.returned error) => state.finish position (.error error)
  | .ok reply => state.finish position (.ok reply)

def select (state : Calls) (position : Nat) (call : Call) (ref : Nat) :
    AwaitCase → Option Calls
  | .contextDone => some (state.finish position (.error .contextDone))
  | .transportClosed =>
      match call.request.watchesTransport, state.transport with
      | true, .closed _ => some (state.finish position (.error .connectionFailed))
      | _, _ => none
  | .answer =>
      (receiveAnswer state.world ref).map fun (answer, world) =>
        { state with world := world }.answered position call answer
  | .err =>
      (receiveErr state.world ref).map fun (error, world) =>
        { state with world := world }.finish position (.error error)
  | .timeout =>
      if call.request.watchesTransport then some (state.finish position (.error .requestTimeout))
      else none

end Calls

inductive CallStep where
  | start (request : Request) (id : QueryID) (now : Int)
  | write (position : Nat) (writeError : Option TlFrame.FrameError)
  | select (position : Nat) (taken : AwaitCase)
  | recvFrame (payload : List Byte) (pongWritten : Bool)
  | correlatorSend (ref position : Nat)
  | gcExpired (now : Int)
  | closeWithErr (err : CocoonError)
  | closeFailAll
  | closeDone
  deriving DecidableEq

def step (state : Calls) (label : CallStep) : Option Calls :=
  if state.panicked then none
  else
    match label with
    | .start request id now => some (state.start request id now)
    | .write position writeError =>
        state.calls[position]?.bind fun call =>
          match call.phase with
          | .writing => some (state.write position call writeError)
          | _ => none
    | .select position taken =>
        state.calls[position]?.bind fun call =>
          match call.phase, call.query with
          | .waiting, some ref => state.select position call ref taken
          | _, _ => none
    | .recvFrame payload pongWritten => some (state.dispatch payload pongWritten)
    | .correlatorSend ref position =>
        (send state.world ref position).map fun world => { state with world := world }
    | .gcExpired now =>
        (gcExpired state.world now).map fun (_, world) => { state with world := world }
    | .closeWithErr err =>
        match state.transport with
        | .opened => some { state with transport := .closing err }
        | _ => none
    | .closeFailAll =>
        match state.transport with
        | .closing err =>
            some { state with transport := .failed err, world := failAll state.world err }
        | _ => none
    | .closeDone =>
        match state.transport with
        | .failed err => some { state with transport := .closed err }
        | _ => none

end Gocoon.RemoteCalls
