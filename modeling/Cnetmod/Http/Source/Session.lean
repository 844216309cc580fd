import Cnetmod.Http.Source.Stream
import Mathlib.Data.List.AList

/-!
# The connection state and its responses (`http/v2/session.cpp`)

The frames a session queues are kept in order; writing them to the transport
takes bytes away that nothing here reads. Handlers run from the event loop
between the steps below, and give their responses to `dispatch`, `respond` or,
for a body that is pulled from a source, to the `write` functions.
-/
namespace Cnetmod.Http.V2

open Coding

/-- A hash map is walked in an order of its own. -/
structure IterationOrder where
  order : List Nat → List Nat := id
  perm : ∀ ids, (order ids).Perm ids := by exact fun ids => List.Perm.refl ids

/-- Which of the three constructors made the session. -/
inductive HandlerKind where
  | server
  | streaming
  | borrowed
  deriving DecidableEq

/-- What the constructors set and nothing changes; a streaming session without room for a
body throws. -/
structure SessionConfig where
  kind : HandlerKind := .server
  bufferCompleteRequests : Bool := false
  bufferFilter : Option (List HeaderField → Bool) := none
  bodyOptions : RequestBodyStreamOptions := {}
  localSettings : Settings := {}
  iteration : IterationOrder := {}
  room : kind ≠ .server → 0 < bodyOptions.maxBytes ∧ 4 ≤ bodyOptions.chunkCapacity := by decide

/-- `borrowed_streaming_handler_` is set. -/
def SessionConfig.borrows (cfg : SessionConfig) : Bool := cfg.kind = .borrowed

/-- `streaming_handler_` or `borrowed_streaming_handler_` is set, and so is `background_`. -/
def SessionConfig.streaming (cfg : SessionConfig) : Bool := cfg.kind ≠ .server

structure Frame where
  header : FrameHeader
  payload : Bytes

structure ReadyRequest where
  streamId : Nat
  headers : List HeaderField := []
  detached : Bool := false
  deriving DecidableEq

structure ServerRequest where
  streamId : Nat
  headers : List HeaderField

/-- A block encoded in advance, by a codec whose table holds nothing. -/
structure PreencodedHeaderBlock where
  status : Nat
  fields : List HeaderField
  block : Bytes
  built : (HeaderCompression.encode { dynamicTableLimit := 0 } fields).2 = .ok block

/-- A body that is pulled chunk by chunk. -/
structure BodySource where
  contentLength : Option Nat := none

structure ServerResponse where
  status : Nat := 200
  headers : List HeaderField := []
  trailers : List HeaderField := []
  body : Bytes := []
  bodyText : Bytes := []
  borrowedBodyText : Bytes := []
  sharedBody : Option Bytes := none
  bodySource : Option BodySource := none
  staticHeaders : List HeaderField := []
  staticTrailers : List HeaderField := []
  preencodedHeaders : Option PreencodedHeaderBlock := none
  automaticContentLength : Bool := true

structure PendingResponse where
  response : ServerResponse
  offset : Nat

/-- A `write_response` that streams a source; it waits for the writer with its header block
encoded. -/
structure SourceWrite where
  response : ServerResponse
  waiting : Option (List HeaderField × Bytes) := none
  total : Nat := 0

namespace SourceWrite

/-- The length the source has announced. -/
def expected (write : SourceWrite) : Option Nat :=
  write.response.bodySource.bind BodySource.contentLength

def exceeds (write : SourceWrite) (size : Nat) : Bool :=
  match write.expected with
  | some expected => write.total > expected || size > expected - write.total
  | none => false

def short (write : SourceWrite) : Bool :=
  match write.expected with
  | some expected => write.total ≠ expected
  | none => false

end SourceWrite

/-- The state of a session but for `input_` and `received_preface_`, which only `receive`
touches. -/
structure Session where
  peer : Settings := {}
  decoder : HeaderCompression := {}
  encoder : HeaderCompression := {}
  streams : AList fun _ : Nat => Stream := ∅
  pendingResponses : AList fun _ : Nat => PendingResponse := ∅
  readyRequests : List ReadyRequest := []
  /-- requests given to a streaming handler while their body arrives -/
  launched : List ServerRequest := []
  sourceWrites : AList fun _ : Nat => SourceWrite := ∅
  outbound : List Frame := []
  /-- history: the header blocks queued so far, each with the fields it was encoded from -/
  sentHeaders : List (List HeaderField × Bytes) := []
  headerBlock : Bytes := []
  continuationStreamId : Nat := 0
  continuationEndStream : Bool := false
  lastPeerStreamId : Nat := 0
  receiveWindow : Int := 65535
  sendWindow : Int := 65535
  receivedSettings : Bool := false
  goawayReceived : Bool := false

def flagAck : UInt8 := 0x1
def flagEndStream : UInt8 := 0x1
def flagEndHeaders : UInt8 := 0x4
def flagPadded : UInt8 := 0x8
def flagPriority : UInt8 := 0x20
def errorProtocol : Nat := 0x1
def errorFrameSize : Nat := 0x6

def FrameHeader.has (header : FrameHeader) (flag : UInt8) : Bool := header.flags &&& flag ≠ 0

namespace Session

def queueFrame (s : Session) (header : FrameHeader) (payload : Bytes) : Session :=
  { s with outbound := s.outbound ++ [⟨{ header with length := payload.length }, payload⟩] }

def queueConnectionError (s : Session) (code : Nat) : Session :=
  { s.queueFrame { type := .goaway } (u32Bytes (s.lastPeerStreamId &&& 0x7fffffff) ++ u32Bytes code)
    with goawayReceived := true }

/-- Queue a header block; `fields` go to the history only. -/
def queueHeaders (s : Session) (streamId : Nat) (endStream : Bool) (fields : List HeaderField) (block : Bytes) : Session :=
  { s.queueFrame
      { type := .headers
        flags := flagEndHeaders ||| (if endStream then flagEndStream else 0)
        streamId } block
    with sentHeaders := s.sentHeaders ++ [(fields, block)] }

end Session

/-- `std::to_string`. -/
def decimal (n : Nat) : Bytes := (Nat.toDigits 10 n).map fun c => UInt8.ofNat c.toNat

namespace ServerResponse

/-- The one of the four places a body can be in that is used. -/
def bodyBytes (r : ServerResponse) : Bytes :=
  match r.sharedBody with
  | some shared => shared
  | none =>
    if !r.borrowedBodyText.isEmpty then r.borrowedBodyText
    else if r.bodyText.isEmpty then r.body
    else r.bodyText

def hasTrailers (r : ServerResponse) : Bool := !r.trailers.isEmpty || !r.staticTrailers.isEmpty

/-- The fields that are left out are those of the connection. -/
def forwarded (field : HeaderField) : Bool :=
  !(field.name.head? = some 0x3a || field.name = "connection" ||
    field.name = "transfer-encoding" || field.name = "upgrade")

/-- The header list for a body of `length` bytes, if that is to be announced. -/
def headerList (r : ServerResponse) (length : Option Nat) : List HeaderField :=
  let kept := (r.headers ++ r.staticHeaders).filter forwarded
  let hasLength := kept.any fun field => field.name = "content-length"
  { name := ":status", value := decimal r.status } :: kept ++
    match length with
    | some length =>
      if r.automaticContentLength && !hasLength then
        [{ name := "content-length", value := decimal length }]
      else []
    | none => []

/-- The fields `queue_response` encodes; an empty body has no length. -/
def responseHeaders (r : ServerResponse) : List HeaderField :=
  r.headerList (if r.bodyBytes.isEmpty then none else some r.bodyBytes.length)

def responseTrailers (r : ServerResponse) : List HeaderField := r.trailers ++ r.staticTrailers

def usePreencoded (r : ServerResponse) : Option PreencodedHeaderBlock :=
  r.preencodedHeaders.filter fun pre =>
    r.status = pre.status && r.headers.isEmpty && r.staticHeaders.isEmpty && r.bodySource.isNone

/-- A stalled response keeps its body beyond the handler. -/
def promoted (r : ServerResponse) : ServerResponse :=
  if !r.borrowedBodyText.isEmpty then
    { r with bodyText := r.borrowedBodyText, borrowedBodyText := [] }
  else r

end ServerResponse

namespace Session

variable (cfg : SessionConfig)

/-- A new entry of the stream table, as `try_emplace` makes it. -/
def newStream (s : Session) (streamId : Nat) : Stream where
  id := streamId
  receiveWindow := ⟨cfg.localSettings.initialWindowSize⟩
  sendWindow := ⟨s.peer.initialWindowSize⟩

/-- What the stream may still send: its window, or for a request that never entered the
table what is left of the peer's initial window. -/
def streamWindow (s : Session) (streamId offset : Nat) : Int :=
  match s.streams.lookup streamId with
  | some stream => stream.sendWindow.value
  | none => s.peer.initialWindowSize - offset

/-- Charge a DATA frame to the connection and to the stream, if it is in the table. -/
def chargeData (s : Session) (streamId size : Nat) : Session :=
  { s with
    sendWindow := s.sendWindow - size
    streams :=
      match s.streams.lookup streamId with
      | some stream =>
        s.streams.insert streamId { stream with sendWindow := (stream.sendWindow.consume size).getD stream.sendWindow }
      | none => s.streams }

/-- The loop of `queue_response_data`; `false` when a window is used up. Every turn sends a
byte at least, so the bytes left bound the turns. -/
def dataLoop : Nat → Session → (streamId : Nat) → (body : Bytes) → (trailers : Bool) → (offset : Nat) → Session × Nat × Bool
  | 0, s, _, _, _, offset => (s, offset, true)
  | fuel + 1, s, streamId, body, trailers, offset =>
    if offset < body.length then
      let available := min s.sendWindow (s.streamWindow streamId offset)
      if available ≤ 0 then (s, offset, false)
      else
        let size := min (min s.peer.maxFrameSize (body.length - offset)) available.toNat
        let last : Bool := offset + size = body.length && !trailers
        let s := (s.chargeData streamId size).queueFrame
          { type := .data, flags := if last then flagEndStream else 0, streamId }
          ((body.drop offset).take size)
        dataLoop fuel s streamId body trailers (offset + size)
    else (s, offset, true)

def queueResponseTrailers (s : Session) (streamId : Nat) (response : ServerResponse) : Session × Except Errc Unit :=
  match s.encoder.encode response.responseTrailers with
  | (encoder, .error code) => ({ s with encoder }, .error code)
  | (encoder, .ok block) =>
    (({ s with encoder }).queueHeaders streamId true response.responseTrailers block, .ok ())

/-- `true` when nothing of the response is left to send. -/
def queueResponseData (s : Session) (streamId : Nat) (response : ServerResponse) (offset : Nat)
    (detached : Bool) : Session × Nat × Bool :=
  if (s.streams.lookup streamId).isNone && !detached then (s, offset, true)
  else
    let body := response.bodyBytes
    match dataLoop (body.length - offset) s streamId body response.hasTrailers offset with
    | (s, offset, false) => (s, offset, false)
    | (s, offset, true) =>
      if response.hasTrailers then
        match s.queueResponseTrailers streamId response with
        | (s, .ok _) => (s, offset, true)
        | (s, .error _) => (s.queueConnectionError errorProtocol, offset, true)
      else (s, offset, true)

/-- The end of `queue_response`, with the header block queued. -/
def queueResponseBody (s : Session) (streamId : Nat) (response : ServerResponse) (detached : Bool) :
    Session :=
  match s.queueResponseData streamId response 0 detached with
  | (s, _, true) => { s with streams := s.streams.erase streamId }
  | (s, offset, false) =>
    -- a detached request enters the table with what it has already used
    let stream := (s.streams.lookup streamId).getD
      (let fresh := ((s.newStream cfg streamId).receiveHeaders [] true).1
       { fresh with sendWindow := (fresh.sendWindow.consume offset).getD fresh.sendWindow })
    { s with
      streams := s.streams.insert streamId stream
      pendingResponses :=
        match s.pendingResponses.lookup streamId with
        | some _ => s.pendingResponses
        | none => s.pendingResponses.insert streamId ⟨response.promoted, offset⟩ }

/-- `queue_response`. The header block is one made in advance or is encoded here; a field
without a name ends the response before anything is queued. -/
def queueResponse (s : Session) (streamId : Nat) (response : ServerResponse) (detached : Bool) :
    Session :=
  if !detached && (s.streams.lookup streamId).isNone then s
  else
    let endOnHeaders := response.bodyBytes.isEmpty && !response.hasTrailers
    match response.usePreencoded with
    | some pre =>
      (s.queueHeaders streamId endOnHeaders pre.fields pre.block).queueResponseBody cfg streamId response detached
    | none =>
      match s.encoder.encode response.responseHeaders with
      | (encoder, .error _) => { s with encoder }
      | (encoder, .ok block) =>
        (({ s with encoder }).queueHeaders streamId endOnHeaders response.responseHeaders
          block).queueResponseBody cfg streamId response detached

/-- One pending response gets another chance. -/
def drainOne (s : Session) (streamId : Nat) : Session :=
  match s.pendingResponses.lookup streamId with
  | none => s
  | some pending =>
    match s.queueResponseData streamId pending.response pending.offset false with
    | (s, _, true) =>
      { s with
        streams := s.streams.erase streamId
        pendingResponses := s.pendingResponses.erase streamId }
    | (s, offset, false) =>
      { s with
        pendingResponses := s.pendingResponses.insert streamId { pending with offset } }

def drainPendingResponses (s : Session) : Session :=
  (cfg.iteration.order s.pendingResponses.keys).foldl drainOne s

/-- `write_response` up to the wait for the writer. -/
def writeStart (s : Session) (streamId : Nat) (response : ServerResponse) : Session :=
  match s.streams.lookup streamId, response.bodySource with
  | some _, some source =>
    if !response.body.isEmpty || !response.bodyText.isEmpty || !response.borrowedBodyText.isEmpty ||
        response.sharedBody.isSome then s
    else
      let fields := response.headerList source.contentLength
      match s.encoder.encode fields with
      | (encoder, .error _) => { s with encoder }
      | (encoder, .ok block) =>
        { s with
          encoder
          sourceWrites := s.sourceWrites.insert streamId { response, waiting := some (fields, block) } }
  | _, _ => s

/-- The writer is free: the header block is queued. -/
def writeHeaders (s : Session) (streamId : Nat) : Session :=
  match s.sourceWrites.lookup streamId with
  | some write =>
    match write.waiting with
    | some (fields, block) =>
      { s.queueHeaders streamId false fields block with
        sourceWrites := s.sourceWrites.insert streamId { write with waiting := none } }
    | none => s
  | none => s

/-- One turn of the loop over a chunk, of which `chunk` is left. The coroutine ends when the
stream is gone or the connection closes. -/
def writeData (s : Session) (streamId : Nat) (chunk : Bytes) : Session :=
  match s.sourceWrites.lookup streamId with
  | none => s
  | some write =>
    if write.waiting.isSome || chunk.isEmpty then s
    else
      match s.streams.lookup streamId with
      | none => { s with sourceWrites := s.sourceWrites.erase streamId }
      | some stream =>
        let available := min s.sendWindow stream.sendWindow.value
        let size := min (min s.peer.maxFrameSize chunk.length) available.toNat
        if s.goawayReceived then { s with sourceWrites := s.sourceWrites.erase streamId }
        else if available ≤ 0 then s
        else if write.exceeds size then { s with sourceWrites := s.sourceWrites.erase streamId }
        else
          { (s.chargeData streamId size).queueFrame { type := .data, streamId } (chunk.take size) with
            sourceWrites := s.sourceWrites.insert streamId { write with total := write.total + size } }

/-- The source is at its end. -/
def writeEnd (s : Session) (streamId : Nat) : Session :=
  match s.sourceWrites.lookup streamId with
  | none => s
  | some write =>
    if write.waiting.isSome then s
    else
      let s := { s with sourceWrites := s.sourceWrites.erase streamId }
      if write.short then s
      else if !write.response.hasTrailers then
        let s := s.queueFrame { type := .data, flags := flagEndStream, streamId } []
        { s with streams := s.streams.erase streamId }
      else
        match s.queueResponseTrailers streamId write.response with
        | (s, .error _) => s
        | (s, .ok _) => { s with streams := s.streams.erase streamId }

/-- The request at the front of `ready_requests_` is answered at once. -/
def dispatch (s : Session) (response : ServerResponse) : Session :=
  match s.readyRequests with
  | [] => s
  | ready :: rest =>
    let s := { s with readyRequests := rest }
    if ready.detached then
      if response.bodySource.isSome then
        let stream := (s.streams.lookup ready.streamId).getD
          ((s.newStream cfg ready.streamId).receiveHeaders [] true).1
        ({ s with streams := s.streams.insert ready.streamId stream }).writeStart ready.streamId response
      else s.queueResponse cfg ready.streamId response true
    else
      match s.streams.lookup ready.streamId with
      | none => s
      | some stream =>
        let s := { s with
          streams := s.streams.insert ready.streamId { stream with headers := [], body := [] } }
        if response.bodySource.isSome then s.writeStart ready.streamId response
        else s.queueResponse cfg ready.streamId response false

/-- The request at the front has a body, and its handler runs in the background. -/
def dispatchBackground (s : Session) : Session :=
  match s.readyRequests with
  | [] => s
  | ready :: rest =>
    if ready.detached then s
    else
      match s.streams.lookup ready.streamId with
      | none => { s with readyRequests := rest }
      | some stream =>
        if !cfg.borrows || stream.body.isEmpty then s
        else
          { s with
            readyRequests := rest
            streams := s.streams.insert ready.streamId { stream with headers := [], body := [] }
            launched := s.launched ++ [{ streamId := ready.streamId, headers := stream.headers }] }

/-- `write_response` of a request in the table, for a handler that ran in the background. -/
def respond (s : Session) (streamId : Nat) (response : ServerResponse) : Session :=
  if response.bodySource.isSome then s.writeStart streamId response
  else s.queueResponse cfg streamId response false

/-- The loop of `return_flow_credit`; `none` ends it without credit for the connection. -/
def creditLoop : List (Nat × Nat) → Session → Nat → Session × Option Nat
  | [], s, connectionCredit => (s, some connectionCredit)
  | (streamId, bytes) :: rest, s, connectionCredit =>
    if bytes > 0x7fffffff - connectionCredit then (s, none)
    else
      match s.streams.lookup streamId with
      | none => creditLoop rest s (connectionCredit + bytes)
      | some stream =>
        match stream.receiveWindow.increase bytes with
        | none => (s, none)
        | some receiveWindow =>
          creditLoop rest
            (({ s with streams := s.streams.insert streamId { stream with receiveWindow }
                }).queueFrame { type := .windowUpdate, streamId } (u32Bytes bytes))
            (connectionCredit + bytes)

def returnConnectionCredit (s : Session) (credit : Nat) : Session :=
  if credit > int32Max - s.receiveWindow then s
  else
    ({ s with receiveWindow := s.receiveWindow + credit }).queueFrame { type := .windowUpdate } (u32Bytes credit)

def returnFlowCredit (s : Session) (credits : List (Nat × Nat)) : Session :=
  match creditLoop credits s 0 with
  | (s, none) => s
  | (s, some credit) => s.returnConnectionCredit credit

/-- A handler takes a chunk of a body. -/
def consumeChunk (s : Session) (streamId : Nat) : Session :=
  match s.streams.lookup streamId with
  | none => s
  | some stream =>
    { s with
      streams := s.streams.insert streamId
        { stream with
          bodyStream := stream.bodyStream.map fun body => { body with chunks := body.chunks.drop 1 } } }

end Session

end Cnetmod.Http.V2
