import Gocoon.TlPrimitives

/-!
# Wire types of the cocoon schema

The constructor ids, the flag-gated parameter records and the token counters, with the
decoders in the order of the source. A field whose flag bit is clear keeps its zero
value.
-/

namespace Gocoon.TlTypes

open Gocoon.LittleEndianBytes
open Gocoon.GoProgram
open Gocoon.TlPrimitives

set_option autoImplicit false

def idClientConnectToProxy : UInt32 := 0xff5fa0f4

def idClientAuthorizeWithProxyShort : UInt32 := 0x6c276723

def idClientAuthorizeWithProxyLong : UInt32 := 0xd3474303

def idClientConnectedToProxy : UInt32 := 0x95317ad1

def idClientAuthorizationWithProxySuccess : UInt32 := 0x75d5ac34

def idClientAuthorizationWithProxyFailed : UInt32 := 0x60551c96

def idClientProxyConnectionAuthShort : UInt32 := 0xd6ffc5af

def idClientProxyConnectionAuthLong : UInt32 := 0x417bf016

def idClientQueryAnswer : UInt32 := 0x9b943922

def idClientQueryAnswerError : UInt32 := 0x6d60569a

def idClientQueryAnswerPart : UInt32 := 0xb765de4c

def idClientQueryAnswerPartError : UInt32 := 0xd790a022

def idClientQueryAnswerEx : UInt32 := 0xcd524720

def idClientQueryAnswerErrorEx : UInt32 := 0x072562a8

def idClientQueryAnswerPartEx : UInt32 := 0xc07bfaec

def idProxySignedPayment : UInt32 := 0x02998182

def idProxySignedPaymentEmpty : UInt32 := 0xb347ce64

def idHTTPResponse : UInt32 := 0x1cd0c42b

def idHTTPRequest : UInt32 := 0x47492de5

def idClientRunQueryEx : UInt32 := 0xf54cb74b

def idClientUpdatePaymentStatus : UInt32 := 0x9ed1c697

def idClientGetWorkerTypesV2 : UInt32 := 0xb2133d72

def idClientPaymentStatus : UInt32 := 0xaa8a0ecc

def idClientWorkerTypesV2 : UInt32 := 0x0cf0dc67

def idClientParams : UInt32 := 0x40fdca64

def idProxyParams : UInt32 := 0xd5c5609f

def readVectorLen : ReadM Nat := do
  let count ← readUint32
  pure count.toNat

/-- `flags & mask != 0`. -/
def hasFlag (flags mask : UInt32) : Bool := flags &&& mask ≠ 0

/-- A field that is on the wire only when its flag bit is set. -/
def readIf {Value : Type} (present : Bool) (absent : Value) (program : ReadM Value) :
    ReadM Value :=
  if present then program else pure absent

theorem reads_if {Value : Type} {present : Bool} {absent value : Value} {program : ReadM Value}
    {bytes : List Byte} (there : present = true → Reads program bytes value)
    (missing : present = false → bytes = [] ∧ value = absent) :
    Reads (readIf present absent program) bytes value := by
  cases present with
  | true => exact there rfl
  | false =>
      obtain ⟨rfl, rfl⟩ := missing rfl
      exact reads_pure value

structure ClientParams where
  flags : UInt32
  clientOwnerAddr : GoString
  isTest : Bool
  minProtoVersion : Int32
  maxProtoVersion : Int32
  deriving DecidableEq

namespace ClientParams

def hasIsTest (params : ClientParams) : Bool := hasFlag params.flags 0x1

def hasProtoVersion (params : ClientParams) : Bool := hasFlag params.flags 0x2

def encode (params : ClientParams) (writer : Writer) : Writer :=
  let named := (writer.writeFlags params.flags).writeString params.clientOwnerAddr
  let tested := if params.hasIsTest then named.writeBool params.isTest else named
  if params.hasProtoVersion then
    (tested.writeInt32 params.minProtoVersion).writeInt32 params.maxProtoVersion
  else tested

/-- `Encode(w, boxed)`: the constructor number stands in front only of a boxed value. -/
def encodeBoxed (params : ClientParams) (boxed : Bool) (writer : Writer) : Writer :=
  params.encode (if boxed then writer.writeUint32 idClientParams else writer)

end ClientParams

def decodeClientParamsBody : ReadM ClientParams := do
  let flags ← readFlags
  let clientOwnerAddr ← readString
  let isTest ← readIf (hasFlag flags 0x1) false readBool
  let minProtoVersion ← readIf (hasFlag flags 0x2) 0 readInt32
  let maxProtoVersion ← readIf (hasFlag flags 0x2) 0 readInt32
  pure { flags, clientOwnerAddr, isTest, minProtoVersion, maxProtoVersion }

structure ClientConnectToProxy where
  params : ClientParams
  minConfigVersion : Int32
  deriving DecidableEq

def ClientConnectToProxy.encode (call : ClientConnectToProxy) (writer : Writer) : Writer :=
  (call.params.encodeBoxed false (writer.writeUint32 idClientConnectToProxy)).writeInt32
    call.minConfigVersion

structure ProxyParams where
  flags : UInt32
  publicKey : FixedBytes 32
  ownerAddress : GoString
  scAddress : GoString
  isTest : Bool
  protoVersion : Int32
  deriving DecidableEq

namespace ProxyParams

def hasIsTest (params : ProxyParams) : Bool := hasFlag params.flags 0x1

def hasProtoVersion (params : ProxyParams) : Bool := hasFlag params.flags 0x2

def encode (params : ProxyParams) (boxed : Bool) (writer : Writer) : Writer :=
  let begun := if boxed then writer.writeUint32 idProxyParams else writer
  let keyed := (begun.writeFlags params.flags).writeInt256 params.publicKey
  let named := (keyed.writeString params.ownerAddress).writeString params.scAddress
  let tested := if params.hasIsTest then named.writeBool params.isTest else named
  if params.hasProtoVersion then tested.writeInt32 params.protoVersion else tested

end ProxyParams

def decodeProxyParamsBody : ReadM ProxyParams := do
  let flags ← readFlags
  let publicKey ← readInt256
  let ownerAddress ← readString
  let scAddress ← readString
  let isTest ← readIf (hasFlag flags 0x1) false readBool
  let protoVersion ← readIf (hasFlag flags 0x2) 0 readInt32
  pure { flags, publicKey, ownerAddress, scAddress, isTest, protoVersion }

structure TokensUsed where
  promptTokens : Int64
  cachedTokens : Int64
  completionTokens : Int64
  reasoningTokens : Int64
  totalTokens : Int64
  deriving DecidableEq

def TokensUsed.zero : TokensUsed where
  promptTokens := 0
  cachedTokens := 0
  completionTokens := 0
  reasoningTokens := 0
  totalTokens := 0

def TokensUsed.encode (tokens : TokensUsed) (writer : Writer) : Writer :=
  ((((writer.writeInt64 tokens.promptTokens).writeInt64 tokens.cachedTokens).writeInt64
    tokens.completionTokens).writeInt64 tokens.reasoningTokens).writeInt64 tokens.totalTokens

def decodeTokensUsed : ReadM TokensUsed := do
  let promptTokens ← readInt64
  let cachedTokens ← readInt64
  let completionTokens ← readInt64
  let reasoningTokens ← readInt64
  let totalTokens ← readInt64
  pure { promptTokens, cachedTokens, completionTokens, reasoningTokens, totalTokens }

end Gocoon.TlTypes
