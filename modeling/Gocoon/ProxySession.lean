import Gocoon.CocoonErrors

/-!
# The state of a proxy session

A session with the fields that its lifecycle reads and writes, and each section that the
source runs under the session's lock as one function. The body of `closeOnce` closes the
`done` channel last, so the channel is closed exactly when the body has finished. A
transport is named by its position in the heap of transports.
-/

namespace Gocoon.ProxySession

open Gocoon.TlPrimitives
open Gocoon.CocoonErrors

set_option autoImplicit false

inductive SessionStatus where
  | connecting
  | ready
  | disconnected
  | crashed
  deriving DecidableEq

/-- `sync.Once`: a second caller waits until the first has finished the body. -/
inductive CloseOnce where
  | unused
  | running
  | finished
  deriving DecidableEq

structure Session where
  proxyAddr : GoString
  status : SessionStatus
  transport : Option Nat
  clientSCAddr : GoString
  err : Option CocoonError
  closeOnce : CloseOnce
  deriving DecidableEq

def newSession (proxyAddr : GoString) : Session where
  proxyAddr := proxyAddr
  status := .connecting
  transport := none
  clientSCAddr := []
  err := none
  closeOnce := .unused

namespace Session

/-- `closed` says which transports are closed. -/
def isUsable (session : Session) (closed : Nat → Bool) : Bool :=
  match session.transport with
  | none => false
  | some tr => session.status = .ready && !closed tr

/-- `connect`: the dialed transport is stored. -/
def install (session : Session) (tr : Nat) : Session := { session with transport := some tr }

/-- `connect`: the update after a successful handshake. -/
def finish (session : Session) (clientSCAddr : GoString) : Session :=
  { session with clientSCAddr := clientSCAddr, status := .ready }

def fail (session : Session) (cause : CocoonError) : Session :=
  { session with status := .crashed, err := some cause }

/-- The locked section of `Close`, which starts the body of `closeOnce`. -/
def beginClose (session : Session) : Session :=
  { session with transport := none, status := .disconnected, closeOnce := .running }

def endClose (session : Session) : Session := { session with closeOnce := .finished }

/-- The check of `removeOnTransportClose`. -/
def lost (session : Session) (tr : Nat) : Bool :=
  session.transport = some tr && session.status = .ready

end Session

end Gocoon.ProxySession
