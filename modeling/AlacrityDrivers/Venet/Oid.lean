import AlacrityDrivers.Venet.CopyFrame

namespace Venet

/-- The OIDs that some branch of `venet_oid_set` or `venet_oid_query` names, and all others. -/
inductive Oid where
  | genStatistics
  | genCurrentPacketFilter
  | genCurrentLookahead
  | genInterruptModeration
  | genMaximumTotalSize
  | genTransmitBlockSize
  | genReceiveBlockSize
  | genTransmitBufferSpace
  | genReceiveBufferSpace
  | genVendorId
  | genVendorDescription
  | genVendorDriverVersion
  | genXmitOk
  | genRcvOk
  | oid8023PermanentAddress
  | oid8023CurrentAddress
  | oid8023MulticastList
  | oid8023MaximumListSize
  | oid8023RcvErrorAlignment
  | oid8023XmitOneCollision
  | oid8023XmitMoreCollisions
  | oid8023XmitDeferred
  | oid8023XmitMaxCollisions
  | oid8023RcvOverrun
  | oid8023XmitUnderrun
  | oid8023XmitHeartbeatFailure
  | oid8023XmitTimesCrsLost
  | oid8023XmitLateCollisions
  | other (code : BitVec 32)
deriving DecidableEq, Repr

/-- The `NDIS_STATUS` codes of the request handlers. -/
inductive OidStatus where
  | success
  | invalidLength
  | bufferOverflow
  | multicastFull
  | notSupported
  | invalidData
  | invalidOid
deriving DecidableEq, Repr

inductive OidRequestType where
  | queryInformation
  | queryStatistics
  | setInformation
  | other
deriving DecidableEq, Repr

def ethLengthOfAddress : Nat := 6

def nicMaxMcastList : Nat := 32

/-- The five packet types of `NIC_SUPPORTED_FILTERS`. -/
def nicSupportedFilters : BitVec 32 := 0x01#32 ||| 0x02#32 ||| 0x08#32 ||| 0x20#32 ||| 0x04#32

def sizeofULong : Nat := 4

def sizeofNdisStatisticsInfo : Nat := 152

def sizeofNdisInterruptModerationParameters : Nat := 12

def venetVendorId : BitVec 32 := 0x00BEEEEF#32

/-- The six letters of `Novell`. -/
def venetVendorDesc : List UInt8 := [0x4e, 0x6f, 0x76, 0x65, 0x6c, 0x6c]

def venetVendorDriverVersion : BitVec 32 := 0x00010000#32

abbrev Bytes (size : Nat) := { bytes : List UInt8 // bytes.length = size }

def zeroMemory (size : Nat) : Bytes size := ⟨List.replicate size 0, List.length_replicate⟩

def moveMemory {size : Nat} (dest : Bytes size) (src : List UInt8) (fits : src.length ≤ size) :
    Bytes size :=
  ⟨src ++ dest.val.drop src.length, by
    rw [List.length_append, List.length_drop, dest.property]
    omega⟩

/-- The part of `ADAPTER` that requests read and set. -/
structure OidData where
  permAddress : Bytes ethLengthOfAddress
  currAddress : Bytes ethLengthOfAddress
  mcSize : Nat
  mcArray : Bytes (nicMaxMcastList * ethLengthOfAddress)
  packetFilter : BitVec 32
  lookAhead : BitVec 32
  maxBusySends : BitVec 32
  maxBusyRecvs : BitVec 32
  txCount : BitVec 64
  rxCount : BitVec 64
deriving DecidableEq

/-- `NDIS_OID_REQUEST`: its buffer with all bytes, and the two counts that a handler returns in it. -/
structure OidRequest where
  requestType : OidRequestType
  oid : Oid
  buffer : List UInt8
  bytes : Nat
  needed : Nat

/-- What a request leaves: the status, the adapter, the buffer, and the counts (`BytesRead` or
    `BytesWritten`, and `BytesNeeded`). -/
structure OidReply where
  status : OidStatus
  adapter : OidData
  buffer : List UInt8
  bytes : Nat
  needed : Nat
deriving DecidableEq

/-- `*(PULONG)b` -/
def readULong (b : List UInt8) : BitVec 32 :=
  BitVec.ofNat 32 ((b.take sizeofULong).foldr (fun byte value => byte.toNat + 256 * value) 0)

def littleEndian : Nat → Nat → List UInt8
  | 0, _ => []
  | size + 1, value => UInt8.ofNat (value % 256) :: littleEndian size (value / 256)

def uLongBytes (value : BitVec 32) : List UInt8 := littleEndian sizeofULong value.toNat

def setMcastList (a : OidData) (b : List UInt8) : OidReply :=
  if b.length % ethLengthOfAddress ≠ 0 then
    ⟨.invalidLength, a, b, b.length, ethLengthOfAddress⟩
  else if fits : b.length ≤ nicMaxMcastList * ethLengthOfAddress then
    ⟨.success,
      { a with
        mcArray := moveMemory (zeroMemory (nicMaxMcastList * ethLengthOfAddress)) b fits
        mcSize := b.length / ethLengthOfAddress },
      b, b.length, ethLengthOfAddress⟩
  else ⟨.multicastFull, a, b, b.length, nicMaxMcastList * ethLengthOfAddress⟩

def setPktFilter (a : OidData) (pf : BitVec 32) : OidStatus × OidData :=
  if pf &&& ~~~nicSupportedFilters ≠ 0#32 then (.notSupported, a)
  else if pf ≠ a.packetFilter then (.success, { a with packetFilter := pf })
  else (.success, a)

/-- `venet_oid_set`. The branch for the lookahead leaves `rc` as it was. -/
def venetOidSet (a : OidData) (oid : Oid) (b : List UInt8) : OidReply :=
  match oid with
  | .oid8023MulticastList => setMcastList a b
  | .genCurrentPacketFilter =>
    if b.length = sizeofULong then
      let (rc, after) := setPktFilter a (readULong b)
      ⟨rc, after, b, b.length, sizeofULong⟩
    else ⟨.invalidLength, a, b, 0, sizeofULong⟩
  | .genCurrentLookahead =>
    if b.length = sizeofULong then
      ⟨.invalidLength, { a with lookAhead := readULong b }, b, sizeofULong, sizeofULong⟩
    else ⟨.invalidLength, a, b, 0, sizeofULong⟩
  | .genInterruptModeration => ⟨.invalidData, a, b, 0, sizeofULong⟩
  | _ => ⟨.invalidOid, a, b, 0, sizeofULong⟩

def objectHeader (size : Nat) : List UInt8 := [0x80, 1] ++ littleEndian 2 size

def overwrite (buf written : List UInt8) : List UInt8 := written ++ buf.drop written.length

def venetGenStats (a : OidData) (buf : List UInt8) : OidReply :=
  if buf.length ≥ sizeofNdisStatisticsInfo then
    ⟨.success, a,
      overwrite buf (objectHeader sizeofNdisStatisticsInfo ++
        List.replicate (sizeofNdisStatisticsInfo - 4) 0),
      sizeofNdisStatisticsInfo, 0⟩
  else ⟨.bufferOverflow, a, buf, 0, sizeofNdisStatisticsInfo⟩

/-- `venet_intr_mod`, which answers that moderation is not supported. -/
def venetIntrMod (a : OidData) (b : List UInt8) : OidReply :=
  if b.length < sizeofNdisInterruptModerationParameters then
    ⟨.invalidLength, a, b, 0, sizeofNdisInterruptModerationParameters⟩
  else
    ⟨.success, a,
      overwrite b (objectHeader sizeofNdisInterruptModerationParameters ++ uLongBytes 0#32 ++
        uLongBytes 1#32),
      sizeofNdisInterruptModerationParameters, 0⟩

/-- `ETH_MAX_PACKET_SIZE * n`, a macro without parentheses. -/
def bufferSpace (n : BitVec 32) : BitVec 32 := 14#32 + 1500#32 * n

/-- The bytes that `p` and `size` describe behind the `switch` of `venet_oid_query`. -/
def queryBytes (a : OidData) : Oid → Option (List UInt8)
  | .genCurrentLookahead => some (uLongBytes a.lookAhead)
  | .genMaximumTotalSize => some (littleEndian sizeofULong ethMaxPacketSize)
  | .genTransmitBlockSize => some (littleEndian sizeofULong ethMaxPacketSize)
  | .genReceiveBlockSize => some (littleEndian sizeofULong ethMaxPacketSize)
  | .genTransmitBufferSpace => some (uLongBytes (bufferSpace a.maxBusySends))
  | .genReceiveBufferSpace => some (uLongBytes (bufferSpace a.maxBusyRecvs))
  | .genVendorId => some (uLongBytes venetVendorId)
  | .genVendorDescription => some venetVendorDesc
  | .genVendorDriverVersion => some (uLongBytes venetVendorDriverVersion)
  | .genCurrentPacketFilter => some (uLongBytes a.packetFilter)
  | .oid8023PermanentAddress => some a.permAddress.val
  | .oid8023CurrentAddress => some a.currAddress.val
  | .oid8023MaximumListSize => some (littleEndian sizeofULong nicMaxMcastList)
  | .genXmitOk => some (littleEndian 8 a.txCount.toNat)
  | .genRcvOk => some (littleEndian 8 a.rxCount.toNat)
  | .oid8023RcvErrorAlignment => some (uLongBytes 0#32)
  | .oid8023XmitOneCollision => some (uLongBytes 0#32)
  | .oid8023XmitMoreCollisions => some (uLongBytes 0#32)
  | .oid8023XmitDeferred => some (uLongBytes 0#32)
  | .oid8023XmitMaxCollisions => some (uLongBytes 0#32)
  | .oid8023RcvOverrun => some (uLongBytes 0#32)
  | .oid8023XmitUnderrun => some (uLongBytes 0#32)
  | .oid8023XmitHeartbeatFailure => some (uLongBytes 0#32)
  | .oid8023XmitTimesCrsLost => some (uLongBytes 0#32)
  | .oid8023XmitLateCollisions => some (uLongBytes 0#32)
  | _ => none

def venetOidQuery (a : OidData) (oid : Oid) (buf : List UInt8) : OidReply :=
  match oid with
  | .genStatistics => venetGenStats a buf
  | .genInterruptModeration => venetIntrMod a buf
  | oid =>
    match queryBytes a oid with
    | none => ⟨.notSupported, a, buf, 0, 0⟩
    | some p =>
      if p.length ≤ buf.length then ⟨.success, a, overwrite buf p, p.length, 0⟩
      else ⟨.invalidLength, a, buf, 0, p.length⟩

def venetOidRequest (a : OidData) (r : OidRequest) : OidReply :=
  match r.requestType with
  | .queryInformation => venetOidQuery a r.oid r.buffer
  | .queryStatistics => venetOidQuery a r.oid r.buffer
  | .setInformation => venetOidSet a r.oid r.buffer
  | .other => ⟨.notSupported, a, r.buffer, r.bytes, r.needed⟩

/-- An adapter as `VenetSetupAdapter` leaves it. -/
def freshAdapter : OidData where
  permAddress := zeroMemory ethLengthOfAddress
  currAddress := zeroMemory ethLengthOfAddress
  mcSize := 0
  mcArray := zeroMemory (nicMaxMcastList * ethLengthOfAddress)
  packetFilter := 0#32
  lookAhead := 1500#32
  maxBusySends := 0#32
  maxBusyRecvs := 0#32
  txCount := 0#64
  rxCount := 0#64

end Venet
