import Cnetmod.Quic.Source.CryptoStream
import Cnetmod.Quic.Source.LossDetection

/-!
# The receive path

`process_packet` of `quic_connection.cpp` from the protected packet to its frames, for
the four kinds of packets that carry frames. Removing the protection is the work of the TLS
library and its keys, which are given for every packet. Of the frames, DATAGRAM is
modelled with its effect; for the others the record says that they were processed.
-/
namespace Cnetmod.Quic

open Coding (Bytes)

def packetNumberDecode (truncatedPn pnBits largestPn : Nat) : Nat :=
  if pnBits = 0 ∨ pnBits > 32 then 0
  else
    let expectedPn := if largestPn = maxUint64 then largestPn else largestPn + 1
    let pnWin := 2 ^ pnBits
    let pnHwin := pnWin / 2
    let candidatePn := (expectedPn - expectedPn % pnWin) ||| truncatedPn
    if (candidatePn + pnHwin) % 2 ^ 64 ≤ expectedPn then (candidatePn + pnWin) % 2 ^ 64
    else if candidatePn > (expectedPn + pnHwin) % 2 ^ 64 ∧ candidatePn > pnWin then candidatePn - pnWin
    else candidatePn

/-- The loop that widens the number, of at most `rounds` rounds. -/
def widen (numUnacked : Nat) : (rounds nbits : Nat) → Nat
  | 0, nbits => nbits
  | rounds + 1, nbits =>
    if 2 ^ nbits ≤ 2 * numUnacked % 2 ^ 64 then widen numUnacked rounds (nbits + 1) else nbits

/-- The truncated number and its bits. -/
def packetNumberEncode (fullPn largestAckedPn : Nat) : Nat × Nat :=
  if fullPn < largestAckedPn then (fullPn % 2 ^ 32, 32)
  else
    let nbits := min (max (widen (fullPn - largestAckedPn) 64 1) 4) 32
    (fullPn % 2 ^ nbits, nbits)

/-- The kinds of packets with frames. A short header names a path by its connection ID, if the
ID is known. -/
inductive PacketKind where
  | initial
  | handshake
  | zeroRtt
  | oneRtt (pathId : Option Nat)
  deriving DecidableEq

/-- A packet of a datagram with its header read: where the protected packet number begins. -/
structure ArrivedPacket where
  kind : PacketKind
  wire : Bytes
  pnOffset : Nat

/-- Header and payload protection. `unprotectHeader` gives the length of the packet number and the
bytes with it in the clear. -/
structure PacketProtection (κ : Type) where
  unprotectHeader : (keys : κ) → (wire : Bytes) → (pnOffset : Nat) → (long : Bool) → Option (Nat × Bytes)
  openPayload : (keys : κ) → (ciphertext header : Bytes) → (packetNumber pathId : Nat) → Option Bytes

/-- The read keys that are there when a packet arrives; those of 1-RTT packets each with its key phase. -/
structure ReadKeys (κ : Type) where
  initial : Option κ := none
  handshake : Option κ := none
  earlyData : Option κ := none
  application : List (κ × Bool) := []

/-- What makes a packet one packet: its space, its path and its number. -/
structure PacketKey where
  space : PnSpace
  pathId : Nat
  packetNumber : Nat
  deriving DecidableEq

structure DatagramConfig where
  maxDatagramFrameSize : Nat
  queueCapacity : Nat := 128

/-- The state of the receive path, with a record of the packets whose frames were processed and of the
DATAGRAM frames handed to the application, each with its place in its packet. -/
structure ReceivePath where
  largestReceived : PnSpace → Nat → Option Nat := fun _ _ => none
  received : PnSpace → Nat → ReceivedPacketRanges := fun _ _ => {}
  closing : Bool := false
  datagrams : List Bytes := []
  processed : List (PacketKey × List Frame) := []
  delivered : List (PacketKey × Nat × Bytes) := []

section Protection

variable {κ : Type} (protection : PacketProtection κ)

/-- One attempt to open a packet. The number is read from the bytes that the protection covered. -/
def openWith (keys : κ) (packet : ArrivedPacket) (long bounded : Bool) (phase : Option Bool) (largest : Option Nat)
    (pathId : Nat) : Option (Nat × Bytes) :=
  match protection.unprotectHeader keys packet.wire packet.pnOffset long with
  | none => none
  | some (pnLength, wire) =>
    if bounded ∧ packet.pnOffset + pnLength > wire.length then none
    else if phase.any (· ≠ (wire.headD 0).toNat.testBit 2) then none
    else
      let truncated := ((wire.drop packet.pnOffset).take pnLength).foldl
        (fun number byte => (number * 256 + byte.toNat) % 2 ^ 64) 0
      let packetNumber := packetNumberDecode (truncated % 2 ^ 32) (pnLength * 8) (largest.getD 0)
      (protection.openPayload keys (wire.drop (packet.pnOffset + pnLength))
        (wire.take (packet.pnOffset + pnLength)) packetNumber pathId).map (packetNumber, ·)

/-- The packet that arrived, if it authenticates, and its plaintext. Handshake packets are opened without
a check of the length; a 1-RTT packet without plaintext is dropped. -/
def authenticate (keys : ReadKeys κ) (state : ReceivePath) (packet : ArrivedPacket) : Option (PacketKey × Bytes) :=
  match packet.kind with
  | .initial => keys.initial.bind fun k =>
    (openWith protection k packet true true none (state.largestReceived .initial 0) 0).map
      fun (number, plaintext) => (⟨.initial, 0, number⟩, plaintext)
  | .handshake => keys.handshake.bind fun k =>
    (openWith protection k packet true false none (state.largestReceived .handshake 0) 0).map
      fun (number, plaintext) => (⟨.handshake, 0, number⟩, plaintext)
  | .zeroRtt => keys.earlyData.bind fun k =>
    (openWith protection k packet true true none (state.largestReceived .application 0) 0).map
      fun (number, plaintext) => (⟨.application, 0, number⟩, plaintext)
  | .oneRtt pathId => pathId.bind fun path =>
    ((keys.application.findSome? fun (k, phase) =>
        openWith protection k packet false true (some phase) (state.largestReceived .application path) path).filter
      fun (_, plaintext) => plaintext ≠ []).map
      fun (number, plaintext) => (⟨.application, path, number⟩, plaintext)

end Protection

/-- The frames of a plaintext up to the first that cannot be processed, and whether that is all of it.
Early data may hold only frames of streams, and no padding is skipped there. -/
def plaintextFrames (early : Bool) : (fuel : Nat) → Bytes → List Frame × Bool
  | 0, _ => ([], true)
  | fuel + 1, plaintext =>
    let bytes := if early then plaintext else plaintext.dropWhile (· = 0)
    if bytes = [] then ([], true)
    else
      match decodeFrame bytes with
      | .error _ => ([], false)
      | .ok (frame, rest) =>
        let allowed := match frame with
          | .stream _ | .resetStream _ | .stopSending .. => true
          | _ => !early
        if rest.length = bytes.length ∨ allowed = false then ([], false)
        else
          let (frames, complete) := plaintextFrames early fuel rest
          (frame :: frames, complete)

namespace ReceivePath

/-- `process_datagram_frame`: the queue of the application is bounded and loses what does not fit. -/
def processDatagramFrame (config : DatagramConfig) (key : PacketKey) (state : ReceivePath) (place : Nat)
    (frame : DatagramFrame) : ReceivePath :=
  if config.maxDatagramFrameSize = 0 ∨ frame.data.length > config.maxDatagramFrameSize then
    { state with closing := true }
  else if state.datagrams.length < config.queueCapacity then
    { state with
      datagrams := state.datagrams ++ [frame.data]
      delivered := state.delivered ++ [(key, place, frame.data)] }
  else state

def processFrame (config : DatagramConfig) (key : PacketKey) (state : ReceivePath) (entry : Frame × Nat) :
    ReceivePath :=
  match entry.1 with
  | .datagram frame => state.processDatagramFrame config key entry.2 frame
  | _ => state

/-- What an authenticated packet does. -/
def processPlaintext (config : DatagramConfig) (early : Bool) (state : ReceivePath) (key : PacketKey)
    (plaintext : Bytes) : ReceivePath :=
  let (frames, complete) := plaintextFrames early (plaintext.length + 1) plaintext
  let largest := state.largestReceived key.space key.pathId
  let state := { state with
    largestReceived := fun space path =>
      if space = key.space ∧ path = key.pathId ∧ largest.all (key.packetNumber > ·) then some key.packetNumber
      else state.largestReceived space path
    processed := state.processed ++ [(key, frames)] }
  let state := frames.zipIdx.foldl (processFrame config key) state
  if complete ∧ frames.any isAckEliciting then
    { state with received := fun space path =>
        if space = key.space ∧ path = key.pathId then (state.received space path).insert key.packetNumber
        else state.received space path }
  else state

/-- `process_packet`: a packet that does not authenticate is dropped. -/
def processPacket {κ : Type} (protection : PacketProtection κ) (config : DatagramConfig) (keys : ReadKeys κ)
    (state : ReceivePath) (packet : ArrivedPacket) : ReceivePath :=
  match authenticate protection keys state packet with
  | none => state
  | some (key, plaintext) => state.processPlaintext config (packet.kind = .zeroRtt) key plaintext

/-- The application takes a datagram from its queue. -/
def receiveDatagram (state : ReceivePath) : ReceivePath := { state with datagrams := state.datagrams.tail }

end ReceivePath

end Cnetmod.Quic
