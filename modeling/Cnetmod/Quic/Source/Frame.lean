import Cnetmod.Coding.Bits

/-!
# Frames

`varint.cpp` and `quic_frame.cpp`: variable-length integers, the frames and
their decoder, and the encoder of ACK frames. A span that is cut off at the front
as it is read stands for a span with an offset.
-/
namespace Cnetmod.Quic

open Coding (Bytes)

inductive CodecError where
  | badMessage
  | valueTooLarge

def maxVarintValue : Nat := 2 ^ 62 - 1

def varintSize (value : Nat) : Nat :=
  if value < 2 ^ 6 then 1
  else if value < 2 ^ 14 then 2
  else if value < 2 ^ 30 then 4
  else 8

/-- The bytes of a value after the tagged one, most significant first. -/
def lowBytes : (count value : Nat) → Bytes
  | 0, _ => []
  | count + 1, value => UInt8.ofNat ((value >>> (8 * count)) &&& 0xff) :: lowBytes count value

/-- `encode_varint_to`: the tag of the size in the top bits of the first byte. -/
def encodeVarint (value : Nat) : Except CodecError Bytes :=
  if value > maxVarintValue then .error .valueTooLarge
  else .ok (match varintSize value with
    | 1 => [UInt8.ofNat value]
    | 2 => UInt8.ofNat (0x40 ||| value >>> 8) :: lowBytes 1 value
    | 4 => UInt8.ofNat (0x80 ||| value >>> 24) :: lowBytes 3 value
    | _ => UInt8.ofNat (0xc0 ||| value >>> 56) :: lowBytes 7 value)

/-- The value and the number of bytes it takes. -/
def decodeVarint (data : Bytes) : Except CodecError (Nat × Nat) :=
  match data with
  | [] => .error .badMessage
  | first :: rest =>
    let tag := (first.toNat >>> 6) &&& 3
    let length := 1 <<< tag
    if data.length < length then .error .badMessage
    else
      let value := (rest.take (length - 1)).foldl (fun value b => (value <<< 8) ||| b.toNat)
        (first.toNat &&& 0x3f)
      if value > maxVarintValue then .error .valueTooLarge else .ok (value, length)

structure AckRange where
  gap : Nat
  ackRangeLength : Nat

structure AckFrame where
  largestAcked : Nat := 0
  ackDelay : Nat := 0
  ackRangeCount : Nat := 0
  firstAckRange : Nat := 0
  ackRanges : List AckRange := []
  hasEcn : Bool := false
  ect0Count : Nat := 0
  ect1Count : Nat := 0
  ecnCeCount : Nat := 0

structure StreamFrame where
  streamId : Nat
  offset : Nat := 0
  data : Bytes := []
  fin : Bool := false

structure ResetStreamFrame where
  streamId : Nat
  applicationErrorCode : Nat := 0
  finalSize : Nat := 0

structure CryptoFrame where
  offset : Nat
  data : Bytes

structure DatagramFrame where
  data : Bytes
  hasLength : Bool := true

structure NewConnectionIdFrame where
  sequenceNumber : Nat
  retirePriorTo : Nat
  cid : Bytes
  statelessResetToken : Bytes

inductive Frame where
  | padding
  | ping
  | ack (frame : AckFrame)
  | resetStream (frame : ResetStreamFrame)
  | stopSending (streamId applicationErrorCode : Nat)
  | crypto (frame : CryptoFrame)
  | newToken (token : Bytes)
  | stream (frame : StreamFrame)
  | maxData (maximum : Nat)
  | maxStreamData (streamId maximum : Nat)
  | maxStreams (maximum : Nat) (bidirectional : Bool)
  | dataBlocked (maximumData : Nat)
  | streamDataBlocked (streamId maximumStreamData : Nat)
  | streamsBlocked (maximum : Nat) (bidirectional : Bool)
  | newConnectionId (frame : NewConnectionIdFrame)
  | retireConnectionId (sequenceNumber : Nat)
  | pathChallenge (data : Bytes)
  | pathResponse (data : Bytes)
  | connectionClose (errorCode frameTypeValue : Nat) (reason : Bytes) (isApplicationError : Bool)
  | handshakeDone
  | datagram (frame : DatagramFrame)
  | pathAck (pathId : Nat) (acknowledgment : AckFrame)
  | pathAbandon (pathId errorCode : Nat)
  | pathStatus (pathId sequenceNumber : Nat) (backup : Bool)
  | pathNewConnectionId (pathId : Nat) (frame : NewConnectionIdFrame)
  | pathRetireConnectionId (pathId sequenceNumber : Nat)
  | maxPathId (maximumPathId : Nat)
  | pathsBlocked (maximumPathId : Nat)
  | pathCidsBlocked (pathId : Nat)

def maxCidLength : Nat := 20

/-- A function that reads from the front of what is left of a packet. -/
abbrev FrameReader := StateT Bytes (Except CodecError)

namespace FrameReader

def varint : FrameReader Nat := fun data => do
  let (value, length) ← decodeVarint data
  return (value, data.drop length)

def bytes (length : Nat) : FrameReader Bytes := fun data =>
  if data.length < length then .error .badMessage
  else .ok (data.take length, data.drop length)

def all : FrameReader Bytes := fun data => .ok (data, [])

def pathId : FrameReader Nat := do
  let value ← varint
  if value ≥ 2 ^ 32 then throw .badMessage else return value

/-- The loop over the ranges of an ACK frame. -/
def ackRanges : (count : Nat) → FrameReader (List AckRange)
  | 0 => return []
  | count + 1 => do
    let gap ← varint
    let ackRangeLength ← varint
    let rest ← ackRanges count
    return ⟨gap, ackRangeLength⟩ :: rest

def ackFrame (hasEcn : Bool) : FrameReader AckFrame := do
  let largestAcked ← varint
  let ackDelay ← varint
  let ackRangeCount ← varint
  let firstAckRange ← varint
  let ackRanges ← ackRanges ackRangeCount
  let frame : AckFrame :=
    { largestAcked, ackDelay, ackRangeCount, firstAckRange, ackRanges, hasEcn }
  if hasEcn then
    let ect0Count ← varint
    let ect1Count ← varint
    let ecnCeCount ← varint
    return { frame with ect0Count, ect1Count, ecnCeCount }
  else return frame

/-- The low bits of the type say whether there is an offset and a length, and whether
the stream ends. -/
def streamFrame (typeValue : Nat) : FrameReader StreamFrame := do
  let streamId ← varint
  let offset ← if typeValue &&& 0x04 ≠ 0 then varint else pure 0
  let data ← if typeValue &&& 0x02 ≠ 0 then varint >>= bytes else all
  return { streamId, offset, data, fin := typeValue &&& 0x01 ≠ 0 }

def connectionClose (isApplicationError : Bool) : FrameReader Frame := do
  let errorCode ← varint
  let frameTypeValue ← if isApplicationError then pure 0 else varint
  let length ← varint
  let reason ← bytes length
  return .connectionClose errorCode frameTypeValue reason isApplicationError

/-- A connection id with its length and the reset token after it. -/
def connectionId (mayBeEmpty : Bool) (sequenceNumber retirePriorTo : Nat) : FrameReader NewConnectionIdFrame := do
  let length ← bytes 1
  let size := (length.headD 0).toNat
  if size > maxCidLength ∨ (size = 0 ∧ mayBeEmpty = false) then throw .badMessage
  else
    let cid ← bytes size
    let statelessResetToken ← bytes 16
    return { sequenceNumber, retirePriorTo, cid, statelessResetToken }

/-- `decode_frame` after the type. -/
def body (typeValue : Nat) : FrameReader Frame :=
  match typeValue with
  | 0x00 => return .padding
  | 0x01 => return .ping
  | 0x02 => return .ack (← ackFrame false)
  | 0x03 => return .ack (← ackFrame true)
  | 0x04 => return .resetStream ⟨← varint, ← varint, ← varint⟩
  | 0x05 => return .stopSending (← varint) (← varint)
  | 0x06 => do
    let offset ← varint
    let length ← varint
    return .crypto ⟨offset, ← bytes length⟩
  | 0x07 => do
    let length ← varint
    return .newToken (← bytes length)
  | 0x10 => return .maxData (← varint)
  | 0x11 => return .maxStreamData (← varint) (← varint)
  | 0x12 => return .maxStreams (← varint) true
  | 0x13 => return .maxStreams (← varint) false
  | 0x14 => return .dataBlocked (← varint)
  | 0x15 => return .streamDataBlocked (← varint) (← varint)
  | 0x16 => return .streamsBlocked (← varint) true
  | 0x17 => return .streamsBlocked (← varint) false
  | 0x18 => do
    let sequenceNumber ← varint
    let retirePriorTo ← varint
    return .newConnectionId (← connectionId true sequenceNumber retirePriorTo)
  | 0x19 => return .retireConnectionId (← varint)
  | 0x1A => return .pathChallenge (← bytes 8)
  | 0x1B => return .pathResponse (← bytes 8)
  | 0x1C => connectionClose false
  | 0x1D => connectionClose true
  | 0x1E => return .handshakeDone
  | 0x30 => return .datagram ⟨← all, false⟩
  | 0x31 => do
    let length ← varint
    return .datagram ⟨← bytes length, true⟩
  | 0x15228c00 => return .pathAck (← pathId) (← ackFrame false)
  | 0x15228c01 => return .pathAck (← pathId) (← ackFrame true)
  | 0x15228c05 => return .pathAbandon (← pathId) (← varint)
  | 0x15228c07 => return .pathStatus (← pathId) (← varint) true
  | 0x15228c08 => return .pathStatus (← pathId) (← varint) false
  | 0x15228c09 => do
    let path ← pathId
    let sequenceNumber ← varint
    let retirePriorTo ← varint
    return .pathNewConnectionId path (← connectionId false sequenceNumber retirePriorTo)
  | 0x15228c0a => return .pathRetireConnectionId (← pathId) (← varint)
  | 0x15228c0c => return .maxPathId (← pathId)
  | 0x15228c0d => return .pathsBlocked (← pathId)
  | 0x15228c0e => return .pathCidsBlocked (← pathId)
  | _ =>
    if 0x08 ≤ typeValue ∧ typeValue ≤ 0x0F then return .stream (← streamFrame typeValue)
    else throw .badMessage

end FrameReader

/-- `decode_frame`: the frame at the front of `data`, and what is left after it. -/
def decodeFrame : FrameReader Frame := do
  let typeValue ← FrameReader.varint
  FrameReader.body typeValue

def isAckEliciting : Frame → Bool
  | .padding | .ack _ | .pathAck .. | .connectionClose .. => false
  | _ => true

/-- `append_varint`: a value that is too large leaves the bytes it was given as zeros. -/
def varintBytes (value : Nat) : Bytes :=
  match encodeVarint value with
  | .ok bytes => bytes
  | .error _ => List.replicate (varintSize value) 0

/-- What `append_ack_frame` and `append_path_ack_frame` write of the frame itself. -/
def ackBytes (f : AckFrame) : Bytes :=
  varintBytes f.largestAcked ++ varintBytes f.ackDelay ++ varintBytes f.ackRangeCount ++
    varintBytes f.firstAckRange ++
    f.ackRanges.flatMap (fun range => varintBytes range.gap ++ varintBytes range.ackRangeLength) ++
    if f.hasEcn then
      varintBytes f.ect0Count ++ varintBytes f.ect1Count ++ varintBytes f.ecnCeCount
    else []

/-- `encode_frame` of an `ack_frame`. -/
def encodeAckFrame (f : AckFrame) : Bytes :=
  varintBytes (if f.hasEcn then 0x03 else 0x02) ++ ackBytes f

/-- `encode_frame` of a `path_ack_frame`. -/
def encodePathAckFrame (pathId : Nat) (f : AckFrame) : Bytes :=
  varintBytes (if f.hasEcn then 0x15228c01 else 0x15228c00) ++ varintBytes pathId ++ ackBytes f

end Cnetmod.Quic
