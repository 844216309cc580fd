import Cnetmod.Quic.Source.AckRanges
import Cnetmod.Quic.Source.PacketStore

/-!
# Loss detection

`loss_detector` of `loss_detection.cppm`, for the three packet number spaces.
Times and durations are in nanoseconds; durations are divided towards zero.
-/
namespace Cnetmod.Quic

inductive PnSpace where
  | initial
  | handshake
  | application
  deriving DecidableEq

inductive QuicErrc where
  | noError
  | internalError
  | flowControlError
  | streamLimitError
  | streamStateError
  | finalSizeError
  | frameEncodingError
  | protocolViolation

abbrev Time := Int
abbrev Duration := Int

def milliseconds (n : Int) : Duration := n * 1000000

/-- `time_point::min()`. -/
def minTime : Time := -2 ^ 63

structure RttSample where
  smoothedRtt : Duration := 0
  rttVar : Duration := 0
  minRtt : Duration := milliseconds 60000
  latestRtt : Duration := 0

structure InflightPacket where
  pn : Nat
  bytes : Nat
  sentTime : Time
  ackEliciting : Bool

structure PnSpaceState where
  inFlightPackets : PacketStore InflightPacket := {}
  largestSentPacketNumber : Nat := 0
  hasSentPacket : Bool := false
  largestAckedPn : Nat := maxUint64
  largestAckedPnSentTime : Time := minTime
  timeOfLastAckElicitingPacket : Time := minTime
  ptoCount : Nat := 0
  bytesInFlight : Nat := 0

structure LossDetector where
  rttSamples : RttSample := {}
  space : PnSpace → PnSpaceState := fun _ => {}

namespace RttSample

def adjustRttEstimate (rtt : RttSample) (filteredRtt : Duration) : RttSample :=
  if rtt.smoothedRtt = 0 then
    { rtt with smoothedRtt := filteredRtt, rttVar := filteredRtt.tdiv 2 }
  else
    let deviation :=
      if filteredRtt > rtt.smoothedRtt then filteredRtt - rtt.smoothedRtt
      else rtt.smoothedRtt - filteredRtt
    { rtt with
      rttVar := (7 * rtt.rttVar + deviation).tdiv 8
      smoothedRtt := rtt.smoothedRtt + (filteredRtt - rtt.smoothedRtt).tdiv 8 }

/-- The acknowledgement delay is in units of eight microseconds. -/
def updateRttEstimate (rtt : RttSample) (sample : Duration) (ackDelay : Nat) : RttSample :=
  let rtt := if sample < rtt.minRtt then { rtt with minRtt := sample } else rtt
  let delay : Duration := ((min ackDelay ((2 ^ 63 - 1) >>> 3)) <<< 3 : Nat) * 1000
  let adjusted := if sample ≥ rtt.minRtt + delay then sample - delay else sample
  { rtt.adjustRttEstimate adjusted with latestRtt := sample }

end RttSample

namespace PnSpaceState

/-- A packet leaves flight, if it is there. -/
def removeIfInflight (state : PnSpaceState) (pn : Nat) : PnSpaceState :=
  match state.inFlightPackets.find pn with
  | none => state
  | some packet =>
    { state with
      bytesInFlight := state.bytesInFlight - packet.bytes
      inFlightPackets := state.inFlightPackets.erase pn }

/-- The numbers in flight that `which` picks, as `for_each` collects them. -/
def inFlightWhere (state : PnSpaceState) (which : InflightPacket → Bool) : List Nat :=
  (state.inFlightPackets.entries.filter fun entry => which entry.2).map fun entry => entry.2.pn

/-- `acknowledge_range`, with the numbers acknowledged so far. -/
def acknowledgeRange (acked : PnSpaceState × List Nat) (range : Coding.Interval) : PnSpaceState × List Nat :=
  let numbers := acked.1.inFlightWhere fun packet => range.low ≤ packet.pn ∧ packet.pn ≤ range.high
  (numbers.foldl removeIfInflight acked.1, acked.2 ++ numbers)

end PnSpaceState

namespace LossDetector

def setSpace (d : LossDetector) (space : PnSpace) (state : PnSpaceState) : LossDetector :=
  { d with space := Function.update d.space space state }

def onPacketSent (d : LossDetector) (pn bytes : Nat) (sendTime : Time) (ackEliciting : Bool) (space : PnSpace) : LossDetector :=
  let state := { d.space space with largestSentPacketNumber := pn, hasSentPacket := true }
  if ackEliciting then
    d.setSpace space { state with
      inFlightPackets := state.inFlightPackets.insert pn ⟨pn, bytes, sendTime, ackEliciting⟩
      bytesInFlight := state.bytesInFlight + bytes
      timeOfLastAckElicitingPacket := sendTime }
  else d.setSpace space state

/-- What an ACK frame is checked for before anything is changed. -/
def checkAck (d : LossDetector) (frame : AckFrame) (largestAckedPn : Nat) (space : PnSpace) : Except QuicErrc Unit :=
  let state := d.space space
  if state.hasSentPacket = false ∨ largestAckedPn > state.largestSentPacketNumber then
    .error .protocolViolation
  else if frame.largestAcked ≠ largestAckedPn then .error .frameEncodingError
  else if validAckRanges frame largestAckedPn = false then .error .frameEncodingError
  else .ok ()

/-- The detector before the ranges of a valid frame are acknowledged. -/
def noteLargest (d : LossDetector) (frame : AckFrame) (largestAckedPn : Nat) (recvTime : Time)
    (space : PnSpace) : LossDetector :=
  let state := d.space space
  let state :=
    if state.largestAckedPn = maxUint64 ∨ largestAckedPn > state.largestAckedPn then
      { state with largestAckedPn }
    else state
  match state.inFlightPackets.find largestAckedPn with
  | none => d.setSpace space state
  | some packet =>
    { d.setSpace space { state with largestAckedPnSentTime := packet.sentTime } with
      rttSamples := d.rttSamples.updateRttEstimate (recvTime - packet.sentTime) (frame.ackDelay % 2 ^ 32) }

def onAckReceived (d : LossDetector) (frame : AckFrame) (largestAckedPn : Nat) (recvTime : Time)
    (space : PnSpace) : LossDetector × Except QuicErrc (List Nat) :=
  match d.checkAck frame largestAckedPn space with
  | .error e => (d, .error e)
  | .ok () =>
    let d := d.noteLargest frame largestAckedPn recvTime space
    let (state, newlyAcked) := (acknowledgedRanges frame largestAckedPn).foldl
      PnSpaceState.acknowledgeRange (d.space space, [])
    let state := if newlyAcked = [] then state else { state with ptoCount := 0 }
    (d.setSpace space state, .ok newlyAcked)

/-- How long after it was sent an unacknowledged packet counts as lost. -/
def lossThreshold (d : LossDetector) : Duration :=
  let smoothed := if d.rttSamples.smoothedRtt = 0 then milliseconds 333 else d.rttSamples.smoothedRtt
  let maxRtt := max smoothed d.rttSamples.latestRtt
  max (maxRtt + maxRtt.tdiv 8) (milliseconds 1)

def detectLostPackets (d : LossDetector) (now : Time) (space : PnSpace) : LossDetector × List Nat :=
  let state := d.space space
  if state.largestAckedPn = maxUint64 then (d, [])
  else
    let lost := state.inFlightWhere fun packet => packet.pn ≤ state.largestAckedPn ∧
      ((packet.pn + 3) % 2 ^ 64 ≤ state.largestAckedPn ∨ packet.sentTime + d.lossThreshold ≤ now)
    (d.setSpace space (lost.foldl PnSpaceState.removeIfInflight state), lost)

def onPtoExpired (d : LossDetector) (space : PnSpace) : LossDetector :=
  d.setSpace space { d.space space with ptoCount := ((d.space space).ptoCount + 1) % 2 ^ 32 }

def discardInflightPacket (d : LossDetector) (pn : Nat) (space : PnSpace) : LossDetector :=
  d.setSpace space ((d.space space).removeIfInflight pn)

/-- The detector without the space, and the bytes that were in flight there. -/
def discardPacketNumberSpace (d : LossDetector) (space : PnSpace) : LossDetector × Nat :=
  let state := d.space space
  if state.hasSentPacket = false ∧ state.inFlightPackets.isEmpty then (d, 0)
  else (d.setSpace space {}, state.bytesInFlight)

end LossDetector

end Cnetmod.Quic
