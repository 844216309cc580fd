import Cnetmod.Quic.Source.LossDetection

/-!
# Recovery

`quic_recovery_controller` of `quic_recovery.cpp` with the frames of
`quic_send_pipeline.cpp` that it keeps. Of the congestion controller only the
bytes in flight are modelled: the three algorithms count them in the same way.
-/
namespace Cnetmod.Quic

open Coding (Bytes)

/-- `sharedBytes` is the address of the body the frame shares. -/
structure QuicSendFrame where
  ownedBytes : Bytes := []
  sharedBytes : Option Nat := none
  streamHeader : Bytes := []
  sharedOffset : Nat := 0
  sharedSize : Nat := 0
  stream : Option Nat := none
  earlyData : Bool := false
  deriving DecidableEq

namespace QuicSendFrame

def isEmpty (f : QuicSendFrame) : Bool := f.ownedBytes.isEmpty && f.streamHeader.isEmpty

/-- `operator==`. -/
def same (lhs rhs : QuicSendFrame) : Bool :=
  if lhs.sharedBytes.isSome ∨ rhs.sharedBytes.isSome then
    lhs.ownedBytes = rhs.ownedBytes ∧ lhs.sharedBytes = rhs.sharedBytes ∧
      lhs.sharedOffset = rhs.sharedOffset ∧ lhs.sharedSize = rhs.sharedSize ∧
      lhs.stream = rhs.stream ∧ lhs.streamHeader = rhs.streamHeader
  else lhs.ownedBytes = rhs.ownedBytes

/-- What is left of a frame that was moved from. -/
def moved (f : QuicSendFrame) : QuicSendFrame := { f with ownedBytes := [], sharedBytes := none }

/-- `std::ranges::find` finds a frame. -/
def isIn (f : QuicSendFrame) (frames : List QuicSendFrame) : Bool := frames.any fun g => g.same f

end QuicSendFrame

structure RetransmittableFrameStorage where
  first : QuicSendFrame := {}
  additional : List QuicSendFrame := []

namespace RetransmittableFrameStorage

def isEmpty (storage : RetransmittableFrameStorage) : Bool := storage.first.isEmpty

def pushBack (storage : RetransmittableFrameStorage) (frame : QuicSendFrame) :
    RetransmittableFrameStorage :=
  if storage.first.isEmpty then { storage with first := frame }
  else { storage with additional := storage.additional ++ [frame] }

/-- What `for_each` visits, in its order. -/
def frames (storage : RetransmittableFrameStorage) : List QuicSendFrame :=
  (if storage.first.isEmpty then [] else [storage.first]) ++ storage.additional

/-- `for_each` with a function that moves the frames away. -/
def moveOut (storage : RetransmittableFrameStorage) : RetransmittableFrameStorage where
  first := if storage.first.isEmpty then storage.first else storage.first.moved
  additional := storage.additional.map QuicSendFrame.moved

/-- The loop of `std::erase_if` with a predicate that keeps a state. -/
def eraseEach {σ : Type} (predicate : σ → QuicSendFrame → σ × Bool) (s : σ) : List QuicSendFrame → σ × List QuicSendFrame
  | [] => (s, [])
  | frame :: rest =>
    let (s, erased) := predicate s frame
    let (s, kept) := eraseEach predicate s rest
    (s, if erased then kept else frame :: kept)

def eraseIf {σ : Type} (predicate : σ → QuicSendFrame → σ × Bool) (s : σ)
    (storage : RetransmittableFrameStorage) : σ × RetransmittableFrameStorage :=
  let (s, additional) := eraseEach predicate s storage.additional
  if storage.first.isEmpty then (s, { storage with additional })
  else
    let (s, erased) := predicate s storage.first
    if erased then
      match additional with
      | [] => (s, {})
      | front :: rest => (s, { first := front, additional := rest })
    else (s, { storage with additional })

end RetransmittableFrameStorage

structure CongestionController where
  bytesInFlight : Nat := 0

namespace CongestionController

def onPacketSent (c : CongestionController) (bytes : Nat) : CongestionController :=
  { c with bytesInFlight := c.bytesInFlight + bytes }

/-- What `on_packet_acked`, `on_packets_discarded` and `on_congestion_event` do alike. -/
def leave (c : CongestionController) (bytes : Nat) : CongestionController :=
  { c with bytesInFlight := c.bytesInFlight - min bytes c.bytesInFlight }

def onPacketAcked (c : CongestionController) (bytes : Nat) : CongestionController := c.leave bytes
def onPacketsDiscarded (c : CongestionController) (bytes : Nat) : CongestionController := c.leave bytes
def onCongestionEvent (c : CongestionController) (lostBytes : Nat) : CongestionController :=
  c.leave lostBytes

end CongestionController

structure SentPacket where
  frames : RetransmittableFrameStorage
  bytes : Nat
  pathMtuProbeTarget : Option Nat := none
  retransmissionAlias : Bool := false

structure QuicRecoveryUpdate where
  lostFrames : List QuicSendFrame := []
  acknowledgedPathMtuProbes : List Nat := []
  lostPathMtuProbes : List Nat := []

structure QuicRecoveryController where
  detector : LossDetector := {}
  congestion : CongestionController := {}
  sentPackets : PnSpace → PacketStore SentPacket := fun _ => {}
  aliasCounts : PnSpace → Nat := fun _ => 0

/-- What the loops of `on_ack_received` have collected. -/
structure AckPass where
  sent : PacketStore SentPacket
  aliasCount : Nat
  congestion : CongestionController
  update : QuicRecoveryUpdate := {}
  deliveredFrames : List QuicSendFrame := []
  acknowledgedAlias : Bool := false
  lostBytes : Nat := 0
  lostProbeBytes : Nat := 0

namespace AckPass

/-- One round of the loop over the acknowledged packets. -/
def acknowledge (resolveAliases : Bool) (pass : AckPass) (packetNumber : Nat) : AckPass :=
  match pass.sent.find packetNumber with
  | none => pass
  | some packet =>
    { pass with
      update := { pass.update with
        acknowledgedPathMtuProbes :=
          pass.update.acknowledgedPathMtuProbes ++ packet.pathMtuProbeTarget.toList }
      deliveredFrames := pass.deliveredFrames ++ if resolveAliases then packet.frames.frames else []
      acknowledgedAlias := pass.acknowledgedAlias || packet.retransmissionAlias
      aliasCount := if packet.retransmissionAlias then pass.aliasCount - 1 else pass.aliasCount
      congestion := pass.congestion.onPacketAcked packet.bytes
      sent := pass.sent.erase packetNumber }

/-- Frames that were delivered in one packet are dropped from the others. -/
def resolve (pass : AckPass) : AckPass :=
  if pass.deliveredFrames.isEmpty then pass
  else
    { pass with sent := pass.sent.mapPackets fun packet =>
        if !pass.acknowledgedAlias && !packet.retransmissionAlias then packet
        else { packet with frames := (packet.frames.eraseIf
          (fun (_ : Unit) candidate => ((), candidate.isIn pass.deliveredFrames)) ()).2 } }

/-- One round of the loop over the lost packets. -/
def lose (pass : AckPass) (packetNumber : Nat) : AckPass :=
  match pass.sent.find packetNumber with
  | none => pass
  | some packet =>
    { pass with
      update := { pass.update with
        lostPathMtuProbes := pass.update.lostPathMtuProbes ++ packet.pathMtuProbeTarget.toList
        lostFrames := pass.update.lostFrames ++ packet.frames.frames.reverse }
      lostProbeBytes :=
        if packet.pathMtuProbeTarget.isSome then pass.lostProbeBytes + packet.bytes else pass.lostProbeBytes
      lostBytes := if packet.pathMtuProbeTarget.isSome then pass.lostBytes else pass.lostBytes + packet.bytes
      aliasCount := if packet.retransmissionAlias then pass.aliasCount - 1 else pass.aliasCount
      sent := pass.sent.erase packetNumber }

/-- The lost bytes leave flight; those of probes are no sign of congestion. -/
def settle (pass : AckPass) : AckPass :=
  let congestion :=
    if pass.lostProbeBytes ≠ 0 then pass.congestion.onPacketsDiscarded pass.lostProbeBytes
    else pass.congestion
  { pass with congestion :=
      if pass.lostBytes ≠ 0 then congestion.onCongestionEvent pass.lostBytes else congestion }

end AckPass

namespace QuicRecoveryController

def setSent (c : QuicRecoveryController) (space : PnSpace) (store : PacketStore SentPacket) :
    QuicRecoveryController :=
  { c with sentPackets := Function.update c.sentPackets space store }

def onPacketSent (c : QuicRecoveryController) (packetNumber bytes : Nat) (sentAt : Time)
    (recoveryTracked : Bool) (space : PnSpace) (frames : RetransmittableFrameStorage)
    (pathMtuProbeTarget : Option Nat) (retransmissionAlias : Bool) : QuicRecoveryController :=
  let c := { c with detector := c.detector.onPacketSent packetNumber bytes sentAt recoveryTracked space }
  if recoveryTracked = false then c
  else
    { c.setSent space ((c.sentPackets space).insert packetNumber
        { frames, bytes, pathMtuProbeTarget, retransmissionAlias }) with
      congestion := c.congestion.onPacketSent bytes
      aliasCounts :=
        if retransmissionAlias then Function.update c.aliasCounts space (c.aliasCounts space + 1)
        else c.aliasCounts }

/-- The passes over acknowledged and lost packets, and the detector after them. -/
def ackPasses (c : QuicRecoveryController) (detector : LossDetector) (acknowledged : List Nat)
    (receivedAt : Time) (space : PnSpace) : LossDetector × AckPass :=
  let pass : AckPass :=
    { sent := c.sentPackets space, aliasCount := c.aliasCounts space, congestion := c.congestion }
  let resolveAliases := c.aliasCounts space ≠ 0
  let pass := (acknowledged.foldl (AckPass.acknowledge resolveAliases) pass).resolve
  let (detector, lost) := detector.detectLostPackets receivedAt space
  (detector, (lost.foldl AckPass.lose pass).settle)

def onAckReceived (c : QuicRecoveryController) (frame : AckFrame) (receivedAt : Time) (space : PnSpace) :
    QuicRecoveryController × Except QuicErrc QuicRecoveryUpdate :=
  match c.detector.onAckReceived frame frame.largestAcked receivedAt space with
  | (detector, .error e) => ({ c with detector }, .error e)
  | (detector, .ok acknowledged) =>
    let (detector, pass) := c.ackPasses detector acknowledged receivedAt space
    ({ c.setSent space pass.sent with
        detector
        congestion := pass.congestion
        aliasCounts := Function.update c.aliasCounts space pass.aliasCount },
      .ok pass.update)

def onPtoExpired (c : QuicRecoveryController) (space : PnSpace) : QuicRecoveryController :=
  { c with detector := c.detector.onPtoExpired space }

/-- One round of the loop of `newest_probe_frames`. -/
def newer (newest : Option (Nat × RetransmittableFrameStorage)) (entry : Nat × SentPacket) :
    Option (Nat × RetransmittableFrameStorage) :=
  if entry.2.frames.isEmpty = false ∧ newest.all fun best => entry.1 > best.1 then
    some (entry.1, entry.2.frames)
  else newest

def newestProbeFrames (c : QuicRecoveryController) (space : PnSpace) : Option RetransmittableFrameStorage :=
  ((c.sentPackets space).entries.foldl newer none).map (·.2)

/-- The controller without the packets of the space, and the path MTU probes among them. -/
def discardNonRetransmittable (c : QuicRecoveryController) (space : PnSpace) : QuicRecoveryController × List Nat :=
  let sent := (c.sentPackets space).entries
  let probes := sent.filter fun entry => entry.2.pathMtuProbeTarget.isSome
  let others := sent.filter fun entry => entry.2.pathMtuProbeTarget.isNone
  let pass : AckPass :=
    { sent := (c.sentPackets space).clear, aliasCount := 0, congestion := c.congestion
      lostProbeBytes := (probes.map fun entry => entry.2.bytes).sum
      lostBytes := (others.map fun entry => entry.2.bytes).sum }
  ({ c.setSent space pass.sent with
      detector := sent.foldl (fun d entry => d.discardInflightPacket entry.1 space) c.detector
      congestion := pass.settle.congestion
      aliasCounts := Function.update c.aliasCounts space 0 },
    sent.filterMap fun entry => entry.2.pathMtuProbeTarget)

def orderedPacketNumbers (store : PacketStore SentPacket) : List Nat :=
  (store.entries.map Prod.fst).mergeSort

def takeOutstandingFrames (c : QuicRecoveryController) (space : PnSpace) : QuicRecoveryController × List QuicSendFrame :=
  let numbers := orderedPacketNumbers (c.sentPackets space)
  (c.setSent space (numbers.foldl (fun store packetNumber => store.modify packetNumber fun packet =>
      { packet with frames := packet.frames.moveOut }) (c.sentPackets space)),
    numbers.flatMap fun packetNumber =>
      ((c.sentPackets space).find packetNumber).elim [] fun packet => packet.frames.frames)

def discardPacketNumberSpace (c : QuicRecoveryController) (space : PnSpace) : QuicRecoveryController :=
  let (detector, bytes) := c.detector.discardPacketNumberSpace space
  { c.setSent space PacketStore.release with
    detector
    congestion := c.congestion.onPacketsDiscarded bytes
    aliasCounts := Function.update c.aliasCounts space 0 }

/-- The predicate of `take_early_data_frames`: a frame of early data goes to the result. -/
def withdraw (result : List QuicSendFrame) (frame : QuicSendFrame) : List QuicSendFrame × Bool :=
  if frame.earlyData then (if frame.isIn result then result else result ++ [frame], true)
  else (result, false)

/-- What the loop of `take_early_data_frames` has collected. -/
structure EarlyPass where
  controller : QuicRecoveryController
  result : List QuicSendFrame := []
  discarded : Nat := 0

/-- One round of the loop of `take_early_data_frames`. -/
def takeEarly (pass : EarlyPass) (packetNumber : Nat) : EarlyPass :=
  let c := pass.controller
  let sent := c.sentPackets .application
  match sent.find packetNumber with
  | none => pass
  | some packet =>
    let containedEarly := packet.frames.frames.any (·.earlyData)
    let (result, frames) := packet.frames.eraseIf withdraw pass.result
    if containedEarly ∧ frames.isEmpty ∧ packet.pathMtuProbeTarget = none then
      { controller := { c.setSent .application (sent.erase packetNumber) with
          detector := c.detector.discardInflightPacket packetNumber .application
          aliasCounts :=
            if packet.retransmissionAlias then
              Function.update c.aliasCounts .application (c.aliasCounts .application - 1)
            else c.aliasCounts }
        result
        discarded := pass.discarded + packet.bytes }
    else
      { pass with
        controller := c.setSent .application (sent.modify packetNumber fun packet => { packet with frames })
        result }

def takeEarlyDataFrames (c : QuicRecoveryController) : QuicRecoveryController × List QuicSendFrame :=
  let pass := (orderedPacketNumbers (c.sentPackets .application)).foldl takeEarly { controller := c }
  ({ pass.controller with congestion := c.congestion.onPacketsDiscarded pass.discarded }, pass.result)

end QuicRecoveryController

end Cnetmod.Quic
