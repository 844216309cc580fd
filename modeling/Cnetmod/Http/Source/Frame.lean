import Cnetmod.Http.Source.HeaderCompression

/-!
# Frames, settings and flow windows
(`http/v2/http_v2_frame.cpp`, `settings.cpp`, `flow_control.cpp`)
-/
namespace Cnetmod.Http.V2

open Coding

/-- Any byte can be cast to a `frame_type`; those without a name are kept as they are. -/
inductive FrameType where
  | data
  | headers
  | priority
  | rstStream
  | settings
  | pushPromise
  | ping
  | goaway
  | windowUpdate
  | continuation
  | other (value : UInt8)
  deriving DecidableEq

def FrameType.ofByte (value : UInt8) : FrameType :=
  if value = 0 then .data
  else if value = 1 then .headers
  else if value = 2 then .priority
  else if value = 3 then .rstStream
  else if value = 4 then .settings
  else if value = 5 then .pushPromise
  else if value = 6 then .ping
  else if value = 7 then .goaway
  else if value = 8 then .windowUpdate
  else if value = 9 then .continuation
  else .other value

structure FrameHeader where
  length : Nat := 0
  type : FrameType
  flags : UInt8 := 0
  streamId : Nat := 0

def frameHeaderSize : Nat := 9

def maxFramePayload : Nat := 16 * 1024 * 1024 - 1

/-- Four bytes, most significant first. -/
def u32 (a b c d : UInt8) : Nat :=
  (a.toNat <<< 24) ||| (b.toNat <<< 16) ||| (c.toNat <<< 8) ||| d.toNat

def u32Bytes (value : Nat) : Bytes :=
  [UInt8.ofNat (value >>> 24), UInt8.ofNat (value >>> 16), UInt8.ofNat (value >>> 8), UInt8.ofNat value]

def decodeFrameHeader : Bytes → Except Errc FrameHeader
  | a :: b :: c :: type :: flags :: i :: j :: k :: l :: _ =>
    let length := (a.toNat <<< 16) ||| (b.toNat <<< 8) ||| c.toNat
    if length > maxFramePayload then .error .messageSize
    else
      .ok
        { length
          type := .ofByte type
          flags
          streamId := u32 i j k l &&& 0x7fffffff }
  | _ => .error .messageSize

structure Settings where
  headerTableSize : Nat := 4096
  enablePush : Bool := false
  maxConcurrentStreams : Nat := 100
  initialWindowSize : Nat := 65535
  maxFrameSize : Nat := 16384
  maxHeaderListSize : Nat := 65536

/-- One entry of a SETTINGS payload; `none` is its `protocol_error`. -/
def applySetting (target : Settings) (id value : Nat) : Option Settings :=
  if id = 1 then some { target with headerTableSize := value }
  else if id = 2 then
    if value > 1 then none else some { target with enablePush := value ≠ 0 }
  else if id = 3 then some { target with maxConcurrentStreams := value }
  else if id = 4 then
    if value > 0x7fffffff then none else some { target with initialWindowSize := value }
  else if id = 5 then
    if value < 16384 ∨ value > 16777215 then none else some { target with maxFrameSize := value }
  else if id = 6 then some { target with maxHeaderListSize := value }
  else some target

/-- The entries before a wrong one stay applied. -/
def settingsLoop : Bytes → Settings → Settings × Except Errc Unit
  | i :: j :: a :: b :: c :: d :: rest, target =>
    match applySetting target ((i.toNat <<< 8) ||| j.toNat) (u32 a b c d) with
    | none => (target, .error .protocolError)
    | some target => settingsLoop rest target
  | _, target => (target, .ok ())

def decodeSettings (payload : Bytes) (target : Settings) : Settings × Except Errc Unit :=
  if payload.length % 6 ≠ 0 then (target, .error .protocolError) else settingsLoop payload target

def encodeSettings (value : Settings) : Bytes :=
  let append := fun (id item : Nat) => [UInt8.ofNat (id >>> 8), UInt8.ofNat id] ++ u32Bytes item
  append 1 value.headerTableSize ++ append 2 (if value.enablePush then 1 else 0) ++
    append 3 value.maxConcurrentStreams ++ append 4 value.initialWindowSize ++
    append 5 value.maxFrameSize ++ append 6 value.maxHeaderListSize

def int32Max : Int := 2147483647

def int32Min : Int := -2147483648

structure FlowWindow where
  value : Int := 65535

/-- `none` where the source returns `false`, which leaves the window alone. -/
def FlowWindow.consume (w : FlowWindow) (bytes : Nat) : Option FlowWindow :=
  if bytes > max w.value 0 then none else some ⟨w.value - bytes⟩

def FlowWindow.increase (w : FlowWindow) (bytes : Nat) : Option FlowWindow :=
  if bytes = 0 ∨ bytes > int32Max ∨ w.value + bytes > int32Max then none else some ⟨w.value + bytes⟩

def FlowWindow.adjust (w : FlowWindow) (delta : Int) : Option FlowWindow :=
  if delta < int32Min - w.value ∨ delta > int32Max - w.value then none else some ⟨w.value + delta⟩

end Cnetmod.Http.V2
