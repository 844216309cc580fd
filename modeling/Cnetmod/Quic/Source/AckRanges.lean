import Cnetmod.Coding.Intervals
import Cnetmod.Quic.Source.Frame

/-!
# Acknowledgements

`received_packet_ranges` and `take_ack_frame` of `quic_connection.cpp`, and what
`loss_detector` reads out of an ACK frame. Packet numbers are 64-bit numbers;
differences that the source does not check wrap around.
-/
namespace Cnetmod.Quic

open Coding (Interval)

def maxUint64 : Nat := 2 ^ 64 - 1

/-- The difference of two 64-bit numbers, without a check. -/
def wrapSub (a b : Nat) : Nat := (a + 2 ^ 64 - b) % 2 ^ 64

structure ReceivedPacketRanges where
  ranges : List Interval := []

namespace ReceivedPacketRanges

def maximumRanges : Nat := 256

/-- `insert` without the bound on the number of ranges. The ranges before `next` end
before the packet number; `next` is the first that does not. -/
def mergeBetween (before after : List Interval) (packetNumber : Nat) : List Interval :=
  if after.head?.any (·.low ≤ packetNumber) then before ++ after
  else
    let joinsPrevious := before.getLast?.any fun previous =>
      previous.high ≠ maxUint64 ∧ previous.high + 1 = packetNumber
    let joinsNext := after.head?.any fun next => packetNumber ≠ maxUint64 ∧ packetNumber + 1 = next.low
    match joinsPrevious, joinsNext, before.getLast?, after with
    | true, true, some previous, next :: rest =>
      before.dropLast ++ { previous with high := next.high } :: rest
    | true, false, some previous, _ => before.dropLast ++ { previous with high := packetNumber } :: after
    | false, true, _, next :: rest => before ++ { next with low := packetNumber } :: rest
    | _, _, _, _ => before ++ ⟨packetNumber, packetNumber⟩ :: after

def merge (ranges : List Interval) (packetNumber : Nat) : List Interval :=
  mergeBetween (ranges.takeWhile (·.high < packetNumber)) (ranges.dropWhile (·.high < packetNumber)) packetNumber

def insert (received : ReceivedPacketRanges) (packetNumber : Nat) : ReceivedPacketRanges :=
  let ranges := merge received.ranges packetNumber
  { ranges := if ranges.length > maximumRanges then ranges.tail else ranges }

end ReceivedPacketRanges

/-- The loop of `take_ack_frame`, from the highest range down. -/
def gapsBelow : (previous : Interval) → List Interval → List AckRange
  | _, [] => []
  | previous, current :: lower =>
    { gap := wrapSub (wrapSub previous.low current.high) 2
      ackRangeLength := wrapSub current.high current.low } :: gapsBelow current lower

def takeAckFrame (received : ReceivedPacketRanges) : Option AckFrame :=
  match received.ranges.reverse with
  | [] => none
  | highest :: lower =>
    some {
      largestAcked := highest.high
      firstAckRange := wrapSub highest.high highest.low
      ackRanges := gapsBelow highest lower
      ackRangeCount := (gapsBelow highest lower).length }

/-- The loop of `valid_ack_ranges`. -/
def validBelow : (rangeLow : Nat) → List AckRange → Bool
  | _, [] => true
  | rangeLow, range :: rest =>
    if rangeLow < 2 ∨ range.gap > rangeLow - 2 then false
    else
      let rangeHigh := rangeLow - 2 - range.gap
      if range.ackRangeLength > rangeHigh then false
      else validBelow (rangeHigh - range.ackRangeLength) rest

def validAckRanges (frame : AckFrame) (largestAckedPn : Nat) : Bool :=
  if frame.firstAckRange > largestAckedPn then false
  else validBelow (largestAckedPn - frame.firstAckRange) frame.ackRanges

/-- The ranges that `on_ack_received` acknowledges after the first. -/
def rangesBelow : (rangeLow : Nat) → List AckRange → List Interval
  | _, [] => []
  | rangeLow, range :: rest =>
    let rangeHigh := wrapSub (wrapSub rangeLow 2) range.gap
    let rangeLow := wrapSub rangeHigh range.ackRangeLength
    ⟨rangeLow, rangeHigh⟩ :: rangesBelow rangeLow rest

/-- The ranges that `on_ack_received` acknowledges, in its order. -/
def acknowledgedRanges (frame : AckFrame) (largestAckedPn : Nat) : List Interval :=
  let rangeLow := wrapSub largestAckedPn frame.firstAckRange
  ⟨rangeLow, largestAckedPn⟩ :: rangesBelow rangeLow frame.ackRanges

end Cnetmod.Quic
