import Gocoon.CocoonErrors
import Gocoon.TlTypes

/-!
# Handshake messages

The two requests of the client and the decoders of the proxy's two answers, in the order
in which the source reads the fields, followed by the checks on the decoded parameters.
`AuthSecretHashOK` is never set by the decoder.
-/

namespace Gocoon.ProxyHandshakeCodec

open Gocoon.LittleEndianBytes
open Gocoon.GoProgram
open Gocoon.CocoonErrors
open Gocoon.TlPrimitives
open Gocoon.TlTypes

set_option autoImplicit false

def encodeClientConnectToProxy (cocoonWalletAddr : GoString) (rootCfgVersion : Int32) :
    List Byte :=
  ((((((newWriter.writeUint32 idClientConnectToProxy).writeFlags 0x3).writeString
    cocoonWalletAddr).writeBool false).writeInt32 1).writeInt32 4).writeInt32 rootCfgVersion
    |>.buf

def encodeAuthorizeShort (secret : GoString) : List Byte :=
  ((newWriter.writeUint32 idClientAuthorizeWithProxyShort).writeBytes secret).buf

def encodeAuthorizeLong : List Byte := (newWriter.writeUint32 idClientAuthorizeWithProxyLong).buf

abbrev DecodeM := GoM Reader CocoonError

/-- A reader error returned as it is. -/
def plain {Value : Type} (program : ReadM Value) : DecodeM Value := mapError .tl program

structure ConnectedToProxyDecoded where
  proxyParams : ProxyParams
  clientSCAddress : GoString
  authSecretHashOK : Bool
  authSecretHash : FixedBytes 32
  authNonce : UInt64
  signedPaymentBlob : List Byte
  deriving DecidableEq

/-- The boxed `client.ProxyConnectionAuth`: a secret hash, zero for the long form, and the
nonce. -/
def decodeConnectionAuth : DecodeM (FixedBytes 32 × UInt64) := do
  let authID ← plain readUint32
  if authID = idClientProxyConnectionAuthShort then do
    let hash ← plain readInt256
    let nonce ← plain readUint64
    pure (hash, nonce)
  else if authID = idClientProxyConnectionAuthLong then do
    let nonce ← plain readUint64
    pure (copyInto 32 [], nonce)
  else fail (.formatted "unknown ProxyConnectionAuth id %#x" authID)

/-- The boxed `proxy.SignedPayment`; `unknown` is the message for another constructor. -/
def decodeSignedPayment (unknown : String) : DecodeM (List Byte) := do
  let spID ← plain readUint32
  if spID = idProxySignedPayment then plain readBytes
  else if spID = idProxySignedPaymentEmpty then pure []
  else fail (.formatted unknown spID)

def readConnectedToProxy : DecodeM ConnectedToProxyDecoded := do
  let id ← plain readUint32
  if id ≠ idClientConnectedToProxy then
    fail (.formattedCause "expected client.connectedToProxy (0x95317ad1), got %#x" id
      (.tl .unknownConstructor))
  else do
    let proxyParams ← mapError (fun cause => .wrapped "proxy.params body" (.tl cause))
      decodeProxyParamsBody
    let clientSCAddress ← plain readString
    let auth ← decodeConnectionAuth
    let signedPaymentBlob ← decodeSignedPayment "unknown SignedPayment id %#x"
    pure {
      proxyParams, clientSCAddress, signedPaymentBlob
      authSecretHashOK := false
      authSecretHash := auth.1
      authNonce := auth.2 }

def decodeConnectedToProxy (answer : List Byte) :
    Except (Fault CocoonError) ConnectedToProxyDecoded :=
  (exec readConnectedToProxy (newReader answer)).1

structure ClientAuthorizationResult where
  success : Bool
  errorCode : Int32
  errorMessage : GoString
  signedPaymentBlob : List Byte
  tokensCommittedDB : Int64
  maxTokens : Int64
  deriving DecidableEq

def readAuthorizationSuccess : DecodeM ClientAuthorizationResult := do
  let signedPaymentBlob ← decodeSignedPayment "authSuccess: unknown SignedPayment %#x"
  let tokensCommittedDB ← plain readInt64
  let maxTokens ← plain readInt64
  pure {
    signedPaymentBlob, tokensCommittedDB, maxTokens
    success := true
    errorCode := 0
    errorMessage := [] }

def readAuthorizationFailed : DecodeM ClientAuthorizationResult := do
  let errorCode ← plain readInt32
  let errorMessage ← plain readString
  pure {
    errorCode, errorMessage
    success := false
    signedPaymentBlob := []
    tokensCommittedDB := 0
    maxTokens := 0 }

def readAuthorizationWithProxy : DecodeM ClientAuthorizationResult := do
  let id ← plain readUint32
  if id = idClientAuthorizationWithProxySuccess then readAuthorizationSuccess
  else if id = idClientAuthorizationWithProxyFailed then readAuthorizationFailed
  else fail (.formattedCause "unknown AuthorizationWithProxy id %#x" id (.tl .unknownConstructor))

def decodeAuthorizationWithProxy (answer : List Byte) :
    Except (Fault CocoonError) ClientAuthorizationResult :=
  (exec readAuthorizationWithProxy (newReader answer)).1

/-- The absent error is acceptance. -/
def validateConnectedToProxy (decoded : ConnectedToProxyDecoded) : Option CocoonError :=
  let params := decoded.proxyParams
  if params.flags &&& 0x3 = 0 then
    some (.protocolMismatch "proxy too old (flags=%#x)" params.flags.toNat)
  else if hasFlag params.flags 0x1 && params.isTest then some .testModeMismatch
  else if hasFlag params.flags 0x2 && (params.protoVersion < 1 || 4 < params.protoVersion) then
    some (.protocolMismatch "proto_version %d" params.protoVersion.toInt)
  else none

end Gocoon.ProxyHandshakeCodec
