import Gocoon.TlFrame
import Gocoon.TlPrimitives

/-!
# Errors of the cocoon package

The sentinel errors and error structures that the modelled functions return, with the
fields the source fills in. Wrapping keeps the inner error, as `%w` does; a formatted
message keeps its format and the value that was put in. Errors of third-party calls are
opaque codes.
-/

namespace Gocoon.CocoonErrors

open Gocoon.TlPrimitives

set_option autoImplicit false

inductive CocoonError where
  | connectionFailed
  | handshakeTimeout
  | protocolMismatch (detail : String) (value : Int)
  | testModeMismatch
  | requestTimeout
  | notConnected
  | alreadyClosed
  | correlatorClosed
  | duplicateQueryID
  | endOfStream
  | contextDone
  | proxy (code : Int32) (message : GoString) (phase : String)
  | frame (cause : TlFrame.FrameError)
  | tl (cause : TlError)
  | wrapped (context : String) (cause : CocoonError)
  | text (message : String)
  | formatted (format : String) (value : UInt32)
  | formattedCause (format : String) (value : UInt32) (cause : CocoonError)
  | quoted (format : String) (value : GoString)
  | addressMismatch (derived proxy rawDerived rawProxy : GoString)
  | chain (op : String) (bocHash : GoString) (inner : CocoonError)
  | library (code : Nat)
  deriving DecidableEq

end Gocoon.CocoonErrors
