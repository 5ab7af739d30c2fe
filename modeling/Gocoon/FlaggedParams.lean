import Gocoon.ProxyHandshakeCodec

/-!
# Parameters behind flags

`client.params` and `proxy.params` carry fields that are on the wire only if a bit of the flag
word is set. The word itself is written and read whatever its other bits are. A decoder returns
what was encoded, with the zero value in every field whose bit is clear. The handshake writes its
first request with calls of its own, which put down the same bytes as the encoder of the type.
-/

namespace Gocoon.FlaggedParams

open Gocoon.LittleEndianBytes
open Gocoon.GoProgram
open Gocoon.TlPrimitives
open Gocoon.TlTypes
open Gocoon.ProxyHandshakeCodec

set_option autoImplicit false

theorem reads_flagged {Value : Type} {program : ReadM Value} {bytes : List Byte} {value : Value}
    (read : Reads program bytes value) (present : Bool) (zero : Value) :
    Reads (readIf present zero program) (if present then bytes else [])
      (if present then value else zero) := by
  apply reads_if
  · rintro rfl
    exact read
  · rintro rfl
    exact ⟨rfl, rfl⟩

def boolWire (value : Bool) : List Byte := putUint32 (if value then boolTrueID else boolFalseID)

/-! ## `client.params` -/

section Client

/-- The value with zeros in the fields whose flag is clear. -/
def carriedClientParams (params : ClientParams) : ClientParams where
  flags := params.flags
  clientOwnerAddr := params.clientOwnerAddr
  isTest := if params.hasIsTest then params.isTest else false
  minProtoVersion := if params.hasProtoVersion then params.minProtoVersion else 0
  maxProtoVersion := if params.hasProtoVersion then params.maxProtoVersion else 0

def clientParamsWire (params : ClientParams) : List Byte :=
  putUint32 params.flags ++ (bytesWire params.clientOwnerAddr ++
    ((if params.hasIsTest then boolWire params.isTest else []) ++
    ((if params.hasProtoVersion then putUint32 params.minProtoVersion.toUInt32 else []) ++
      if params.hasProtoVersion then putUint32 params.maxProtoVersion.toUInt32 else [])))

theorem client_params_buf (params : ClientParams) (writer : Writer) :
    (params.encodeBoxed false writer).buf = writer.buf ++ clientParamsWire params := by
  simp only [ClientParams.encodeBoxed, ClientParams.encode, clientParamsWire, boolWire,
    Writer.writeString]
  cases params.hasIsTest <;> cases params.hasProtoVersion <;>
    simp [write_bytes_buf, Writer.writeFlags, Writer.writeBool, Writer.writeInt32,
      Writer.writeUint32, Writer.writeRaw]

theorem reads_client_params {params : ClientParams}
    (short : params.clientOwnerAddr.length < 2 ^ 24) :
    Reads decodeClientParamsBody (clientParamsWire params) (carriedClientParams params) := by
  apply (reads_uint32 params.flags).bind
  apply (reads_bytes params.clientOwnerAddr short).bind
  apply (reads_flagged (reads_bool params.isTest) params.hasIsTest false).bind
  apply (reads_flagged (reads_int32 params.minProtoVersion) params.hasProtoVersion 0).bind
  exact (reads_flagged (reads_int32 params.maxProtoVersion) params.hasProtoVersion 0).map _

end Client

/-! ## `proxy.params` -/

section Proxy

def carriedProxyParams (params : ProxyParams) : ProxyParams where
  flags := params.flags
  publicKey := params.publicKey
  ownerAddress := params.ownerAddress
  scAddress := params.scAddress
  isTest := if params.hasIsTest then params.isTest else false
  protoVersion := if params.hasProtoVersion then params.protoVersion else 0

def proxyParamsWire (params : ProxyParams) : List Byte :=
  putUint32 params.flags ++ (params.publicKey.val ++ (bytesWire params.ownerAddress ++
    (bytesWire params.scAddress ++
    ((if params.hasIsTest then boolWire params.isTest else []) ++
      if params.hasProtoVersion then putUint32 params.protoVersion.toUInt32 else []))))

theorem proxy_params_buf (params : ProxyParams) (writer : Writer) :
    (params.encode false writer).buf = writer.buf ++ proxyParamsWire params := by
  simp only [ProxyParams.encode, proxyParamsWire, boolWire, Writer.writeString]
  cases params.hasIsTest <;> cases params.hasProtoVersion <;>
    simp [write_bytes_buf, Writer.writeFlags, Writer.writeInt256, Writer.writeBool,
      Writer.writeInt32, Writer.writeUint32, Writer.writeRaw]

theorem reads_proxy_body {params : ProxyParams} (shortOwner : params.ownerAddress.length < 2 ^ 24)
    (shortContract : params.scAddress.length < 2 ^ 24) :
    Reads decodeProxyParamsBody (proxyParamsWire params) (carriedProxyParams params) := by
  apply (reads_uint32 params.flags).bind
  apply (reads_int256 params.publicKey).bind
  apply (reads_bytes params.ownerAddress shortOwner).bind
  apply (reads_bytes params.scAddress shortContract).bind
  apply (reads_flagged (reads_bool params.isTest) params.hasIsTest false).bind
  exact (reads_flagged (reads_int32 params.protoVersion) params.hasProtoVersion 0).map _

end Proxy

/-! ## The first request -/

section Request

def handshakeParams (cocoonWalletAddr : GoString) : ClientParams where
  flags := 0x3
  clientOwnerAddr := cocoonWalletAddr
  isTest := false
  minProtoVersion := 1
  maxProtoVersion := 4

def readConnectToProxy : ReadM (UInt32 × ClientConnectToProxy) := do
  let number ← readUint32
  let params ← decodeClientParamsBody
  let minConfigVersion ← readInt32
  pure (number, { params, minConfigVersion })

theorem connect_call_buf (call : ClientConnectToProxy) :
    (call.encode newWriter).buf = putUint32 idClientConnectToProxy ++
      (clientParamsWire call.params ++ putUint32 call.minConfigVersion.toUInt32) := by
  have params := client_params_buf call.params (newWriter.writeUint32 idClientConnectToProxy)
  simp [ClientConnectToProxy.encode, Writer.writeInt32, Writer.writeUint32, Writer.writeRaw,
    newWriter] at params ⊢
  rw [params]
  simp

theorem reads_connect_call {call : ClientConnectToProxy}
    (short : call.params.clientOwnerAddr.length < 2 ^ 24) :
    Reads readConnectToProxy (call.encode newWriter).buf
      (idClientConnectToProxy,
        { params := carriedClientParams call.params
          minConfigVersion := call.minConfigVersion }) := by
  rw [connect_call_buf]
  apply (reads_uint32 _).bind
  apply (reads_client_params short).bind
  exact (reads_int32 call.minConfigVersion).map _

theorem handshake_flags (cocoonWalletAddr : GoString) :
    (handshakeParams cocoonWalletAddr).hasIsTest = true ∧
      (handshakeParams cocoonWalletAddr).hasProtoVersion = true := by
  have tested : hasFlag 0x3 0x1 = true := by decide
  have versioned : hasFlag 0x3 0x2 = true := by decide
  exact ⟨tested, versioned⟩

theorem handshake_params_carried (cocoonWalletAddr : GoString) :
    carriedClientParams (handshakeParams cocoonWalletAddr) = handshakeParams cocoonWalletAddr := by
  obtain ⟨tested, versioned⟩ := handshake_flags cocoonWalletAddr
  simp only [carriedClientParams, tested, versioned, if_true]

theorem handshake_encoders_agree (cocoonWalletAddr : GoString) (rootCfgVersion : Int32) :
    encodeClientConnectToProxy cocoonWalletAddr rootCfgVersion =
      (ClientConnectToProxy.encode ⟨handshakeParams cocoonWalletAddr, rootCfgVersion⟩
        newWriter).buf := by
  obtain ⟨tested, versioned⟩ := handshake_flags cocoonWalletAddr
  simp only [ClientConnectToProxy.encode, ClientParams.encodeBoxed, ClientParams.encode, tested,
    versioned, if_true, Bool.false_eq_true, if_false]
  rfl

end Request

/-- For every flag word and all strings shorter than `2 ^ 24`, in front of any bytes: the bare
encoding decodes to the value with zeros in the fields whose flag is clear, and the cursor stops
behind it. The handshake's own encoder writes what the encoder of the type writes, and the
parameters and the version are read back from it to the last byte. -/
theorem flagged_params_round_trip :
    (∀ params : ClientParams, params.clientOwnerAddr.length < 2 ^ 24 →
      Reads decodeClientParamsBody (params.encodeBoxed false newWriter).buf
        (carriedClientParams params)) ∧
    (∀ params : ProxyParams, params.ownerAddress.length < 2 ^ 24 →
      params.scAddress.length < 2 ^ 24 →
      Reads decodeProxyParamsBody (params.encode false newWriter).buf
        (carriedProxyParams params)) ∧
    ∀ (cocoonWalletAddr : GoString) (rootCfgVersion : Int32),
      let call : ClientConnectToProxy := ⟨handshakeParams cocoonWalletAddr, rootCfgVersion⟩
      let bytes := encodeClientConnectToProxy cocoonWalletAddr rootCfgVersion
      bytes = (call.encode newWriter).buf ∧
        (cocoonWalletAddr.length < 2 ^ 24 → exec readConnectToProxy (newReader bytes) =
          (.ok (idClientConnectToProxy, call), ⟨bytes, bytes.length⟩)) := by
  refine ⟨?_, ?_, ?_⟩
  · intro params short
    rw [client_params_buf]
    exact reads_client_params short
  · intro params shortOwner shortContract
    rw [proxy_params_buf]
    exact reads_proxy_body shortOwner shortContract
  · intro cocoonWalletAddr rootCfgVersion call bytes
    have same : bytes = (call.encode newWriter).buf :=
      handshake_encoders_agree cocoonWalletAddr rootCfgVersion
    refine ⟨same, ?_⟩
    intro short
    have read := @reads_connect_call call short [] []
    rw [← same, List.nil_append, List.append_nil] at read
    simpa [newReader, call, handshake_params_carried] using read

theorem high_flag_params_read :
    let params : ClientParams := ⟨0x80000001, ascii "EQ", true, 5, 6⟩
    Reads decodeClientParamsBody (params.encodeBoxed false newWriter).buf
      ⟨0x80000001, ascii "EQ", true, 0, 0⟩ :=
  flagged_params_round_trip.1 ⟨0x80000001, ascii "EQ", true, 5, 6⟩ (by decide)

end Gocoon.FlaggedParams
