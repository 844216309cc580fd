import Cnetmod.Http.Source.Session

/-!
# Receiving on a connection (`http/v2/session.cpp`)

`process_frame`, one function for each kind of frame, and the parsing of what the
transport reads.
-/
namespace Cnetmod.Http.V2

open Coding

/-- A session with the bytes it has not parsed yet. -/
structure Connection where
  session : Session := {}
  receivedPreface : Bool := false
  input : Bytes := []

def clientPreface : Bytes := "PRI * HTTP/2.0\r\n\r\nSM\r\n\r\n"

namespace SessionConfig

/-- `buffer_request`: the body is collected before the handler runs. -/
def bufferRequest (cfg : SessionConfig) (fields : List HeaderField) : Bool :=
  cfg.bufferCompleteRequests &&
    match cfg.bufferFilter with
    | some filter => filter fields
    | none => false

/-- The handler starts before the body is complete. -/
def startsStreaming (cfg : SessionConfig) (fields : List HeaderField) (endStream completeBodyFollows : Bool) : Bool :=
  let completeBodyFollows :=
    if cfg.bufferFilter.isSome && !cfg.bufferRequest fields then false else completeBodyFollows
  cfg.streaming && !endStream && !completeBodyFollows && !cfg.bufferRequest fields

end SessionConfig

namespace Session

variable (cfg : SessionConfig)

def connectionHeader (name : Bytes) : Bool :=
  name = "connection" || name = "keep-alive" || name = "proxy-connection" ||
    name = "transfer-encoding" || name = "upgrade"

/-- The locals of the loop of `validate_headers`. -/
structure Validation where
  regularSeen : Bool := false
  method : Bool := false
  scheme : Bool := false
  path : Bool := false

def validateField (v : Validation) (field : HeaderField) : Option Validation :=
  if field.name.isEmpty then none
  else if field.name.any fun ch => 0x41 ≤ ch && ch ≤ 0x5a then none
  else if field.name.head? = some 0x3a then
    if v.regularSeen then none
    else
      some
        { v with
          method := v.method || field.name = ":method"
          scheme := v.scheme || field.name = ":scheme"
          path := v.path || field.name = ":path" }
  else if connectionHeader field.name then none
  else some { v with regularSeen := true }

/-- `true` where the source returns no error. -/
def validateHeaders (fields : List HeaderField) : Bool :=
  match fields.foldlM validateField {} with
  | none => false
  | some v => v.method && v.scheme && v.path

/-- Give a request to a streaming handler before its body is complete. -/
def startStreamingRequest (s : Session) (streamId : Nat) : Session :=
  match s.streams.lookup streamId with
  | none => s
  | some stream =>
    if !cfg.streaming then s
    else
      let body : RequestBodyStream :=
        { chunkCapacity := cfg.bodyOptions.chunkCapacity, maxBytes := cfg.bodyOptions.maxBytes }
      let body := if stream.body.isEmpty then body else (body.push stream.body).1
      { s with
        streams := s.streams.insert streamId { stream with bodyStream := some body, body := [], headers := [] }
        launched := s.launched ++ [{ streamId, headers := stream.headers }] }

/-- One turn of the loop over the streams; after a window that overflows nothing is adjusted,
but those before it stay so. -/
def adjustOne (delta : Int) (acc : Session × Bool) (streamId : Nat) : Session × Bool :=
  match acc.1.streams.lookup streamId with
  | none => acc
  | some stream =>
    if !acc.2 then acc
    else
      match stream.sendWindow.adjust delta with
      | none => (acc.1, false)
      | some sendWindow =>
        ({ acc.1 with streams := acc.1.streams.insert streamId { stream with sendWindow } }, true)

def adjustStreams (s : Session) (delta : Int) : Session × Bool :=
  if delta ≠ 0 then (cfg.iteration.order s.streams.keys).foldl (adjustOne delta) (s, true)
  else (s, true)

def processSettings (s : Session) (header : FrameHeader) (payload : Bytes) : Session × Except Errc Unit :=
  if header.streamId ≠ 0 then (s, .error .protocolError)
  else if header.has flagAck then
    (s, if payload.isEmpty then .ok () else .error .protocolError)
  else
    match decodeSettings payload s.peer with
    | (peer, .error code) => ({ s with peer }, .error code)
    | (peer, .ok _) =>
      match ({ s with peer }).adjustStreams cfg (peer.initialWindowSize - s.peer.initialWindowSize) with
      | (s, false) => (s, .error .protocolError)
      | (s, true) =>
        let s := { s with
          encoder := s.encoder.setDynamicTableLimit peer.headerTableSize
          receivedSettings := true }
        ((s.queueFrame { type := .settings, flags := flagAck } []).drainPendingResponses cfg, .ok ())

/-- The header block fragment of a frame, without padding and priority. -/
def fragmentOf (header : FrameHeader) (payload : Bytes) : Option Bytes :=
  let padded := header.type = .headers ∧ header.has flagPadded
  if padded ∧ payload.isEmpty then none
  else
    let padding := if padded then (payload.headD 0).toNat else 0
    let offset := (if padded then 1 else 0) +
      (if header.type = .headers ∧ header.has flagPriority then 5 else 0)
    if offset > payload.length ∨ padding > payload.length - offset then none
    else some ((payload.drop offset).take (payload.length - offset - padding))

/-- A request completed by its HEADERS frame goes straight to the ready queue. -/
def acceptDetached (s : Session) (streamId : Nat) (block : Bytes) : Session × Except Errc Unit :=
  match s.decoder.decode block with
  | (decoder, .error code) => ({ s with decoder, headerBlock := [] }, .error code)
  | (decoder, .ok fields) =>
    let s := { s with decoder, headerBlock := [] }
    if !validateHeaders fields then (s, .error .protocolError)
    else
      ({ s with
          lastPeerStreamId := streamId
          readyRequests := s.readyRequests ++ [{ streamId, headers := fields, detached := true }] },
        .ok ())

def acceptStream (s : Session) (streamId : Nat) (block : Bytes) (endStream completeBodyFollows : Bool) :
    Session × Except Errc Unit :=
  match s.streams.lookup streamId, (s.newStream cfg streamId).prepareHeaders endStream with
  | none, some stream =>
    match s.decoder.decode block with
    | (decoder, .error code) => ({ s with decoder, headerBlock := [] }, .error code)
    | (decoder, .ok fields) =>
      let s := { s with decoder, headerBlock := [] }
      if !validateHeaders fields then (s, .error .protocolError)
      else
        let s := { s with
          streams := s.streams.insert streamId { stream with headers := fields }
          lastPeerStreamId := streamId }
        if cfg.startsStreaming fields endStream completeBodyFollows then
          (s.startStreamingRequest cfg streamId, .ok ())
        else if endStream then
          ({ s with readyRequests := s.readyRequests ++ [{ streamId }] }, .ok ())
        else (s, .ok ())
  | _, _ => ({ s with headerBlock := [] }, .error .protocolError)

/-- HEADERS and CONTINUATION. -/
def processHeaders (s : Session) (header : FrameHeader) (payload : Bytes)
    (completeBodyFollows : Bool) : Session × Except Errc Unit :=
  if header.streamId = 0 then (s, .error .protocolError)
  else if header.type = .continuation ∧ header.streamId ≠ s.continuationStreamId then
    (s, .error .protocolError)
  else if header.type = .headers ∧ s.continuationStreamId ≠ 0 then (s, .error .protocolError)
  else
    match fragmentOf header payload with
    | none => (s, .error .protocolError)
    | some fragment =>
      if !header.has flagEndHeaders then
        ({ s with
            headerBlock := s.headerBlock ++ fragment
            continuationStreamId := header.streamId
            continuationEndStream := header.has flagEndStream }, .ok ())
      else if header.streamId % 2 = 0 ∨ header.streamId ≤ s.lastPeerStreamId then
        ({ s with continuationStreamId := 0, headerBlock := [], continuationEndStream := false }, .error .protocolError)
      else
        let endStream := s.continuationEndStream || header.has flagEndStream
        let block := if header.type = .continuation then s.headerBlock ++ fragment else fragment
        let s := { s with continuationStreamId := 0, continuationEndStream := false }
        if cfg.borrows && endStream then s.acceptDetached header.streamId block
        else s.acceptStream cfg header.streamId block endStream completeBodyFollows

/-- A body that outgrows the small buffer is streamed from here on. -/
def outgrow (s : Session) (streamId bytes : Nat) : Session :=
  match s.streams.lookup streamId with
  | some stream =>
    let limit := min (16 * 1024) cfg.bodyOptions.maxBytes
    if cfg.borrows && stream.bodyStream.isNone && bytes > limit - min limit stream.body.length then
      s.startStreamingRequest cfg streamId
    else s
  | none => s

/-- Without a streaming handler the connection's window is refilled when half of it is used. -/
def chargeConnection (s : Session) (bytes : Nat) : Session :=
  let s := { s with receiveWindow := s.receiveWindow - bytes }
  if !cfg.streaming && s.receiveWindow ≤ 32767 then
    let increment := 65535 - s.receiveWindow
    ({ s with receiveWindow := s.receiveWindow + increment }).queueFrame { type := .windowUpdate } (u32Bytes increment.toNat)
  else s

def processData (s : Session) (header : FrameHeader) (payload : Bytes) : Session × Except Errc Unit :=
  let s := s.outgrow cfg header.streamId payload.length
  if header.streamId = 0 ∨ (payload.length : Int) > max s.receiveWindow 0 then (s, .error .protocolError)
  else
    match s.streams.lookup header.streamId with
    | none => (s, .error .protocolError)
    | some stream =>
      let (stream, received) := stream.receiveData payload (header.has flagEndStream)
      let s := { s with streams := s.streams.insert header.streamId stream }
      if !received then (s, .error .protocolError)
      else
        let s := s.chargeConnection cfg payload.length
        if header.has flagEndStream && stream.bodyStream.isNone then
          ({ s with readyRequests := s.readyRequests ++ [{ streamId := header.streamId }] }, .ok ())
        else (s, .ok ())

def processPing (s : Session) (header : FrameHeader) (payload : Bytes) : Session × Except Errc Unit :=
  if header.streamId ≠ 0 ∨ payload.length ≠ 8 then (s, .error .protocolError)
  else if !header.has flagAck then (s.queueFrame { type := .ping, flags := flagAck } payload, .ok ())
  else (s, .ok ())

/-- The increment of a WINDOW_UPDATE payload. -/
def incrementOf : Bytes → Option Nat
  | [a, b, c, d] =>
    let increment := u32 a b c d &&& 0x7fffffff
    if increment = 0 then none else some increment
  | _ => none

def processWindowUpdate (s : Session) (header : FrameHeader) (payload : Bytes) : Session × Except Errc Unit :=
  match incrementOf payload with
  | none => (s, .error .protocolError)
  | some increment =>
    if header.streamId = 0 then
      if increment > int32Max - s.sendWindow then (s, .error .protocolError)
      else
        (({ s with sendWindow := s.sendWindow + increment }).drainPendingResponses cfg, .ok ())
    else
      match s.streams.lookup header.streamId with
      | none => (s.drainPendingResponses cfg, .ok ())
      | some stream =>
        match stream.sendWindow.increase increment with
        | none => (s, .error .protocolError)
        | some sendWindow =>
          (({ s with
              streams := s.streams.insert header.streamId { stream with sendWindow }
              }).drainPendingResponses cfg, .ok ())

def processRstStream (s : Session) (header : FrameHeader) (payload : Bytes) : Session × Except Errc Unit :=
  if header.streamId = 0 ∨ payload.length ≠ 4 then (s, .error .protocolError)
  else
    -- the body stream, which the handler still holds, has failed
    ({ s with
        streams := s.streams.erase header.streamId
        pendingResponses := s.pendingResponses.erase header.streamId
        readyRequests := s.readyRequests.filter fun ready => ready.streamId ≠ header.streamId },
      .ok ())

def processGoaway (s : Session) (header : FrameHeader) (payload : Bytes) : Session × Except Errc Unit :=
  if header.streamId ≠ 0 ∨ payload.length < 8 then (s, .error .protocolError)
  else ({ s with goawayReceived := true }, .ok ())

def processFrame (s : Session) (header : FrameHeader) (payload : Bytes)
    (completeBodyFollows : Bool) : Session × Except Errc Unit :=
  if header.length > cfg.localSettings.maxFrameSize then (s, .error .messageSize)
  else if s.continuationStreamId ≠ 0 ∧ header.type ≠ .continuation then (s, .error .protocolError)
  else
    match header.type with
    | .settings => s.processSettings cfg header payload
    | .headers => s.processHeaders cfg header payload completeBodyFollows
    | .continuation => s.processHeaders cfg header payload completeBodyFollows
    | .data => s.processData cfg header payload
    | .ping => s.processPing header payload
    | .windowUpdate => s.processWindowUpdate cfg header payload
    | .rstStream => s.processRstStream header payload
    | .goaway => s.processGoaway header payload
    | .priority => (s, .ok ())
    | .pushPromise => (s, .ok ())
    | .other _ => (s, .ok ())

/-- Whether the whole body of a request stands right behind its HEADERS frame. -/
def completeBodyFollows (header : FrameHeader) (next : Bytes) : Bool :=
  cfg.bufferCompleteRequests && header.type = .headers &&
    header.flags &&& (flagEndHeaders ||| flagEndStream) = flagEndHeaders &&
    match decodeFrameHeader next with
    | .error _ => false
    | .ok body =>
      body.type = .data && body.streamId = header.streamId &&
        body.flags &&& (flagEndStream ||| flagPadded) = flagEndStream &&
        body.length ≤ cfg.localSettings.maxFrameSize && body.length ≤ cfg.bodyOptions.maxBytes &&
        next.length - frameHeaderSize ≥ body.length

/-- The loop of `receive` over what is left of the source. Every turn takes a frame header at
least, so the bytes left bound the turns. -/
def receiveLoop (fuel : Nat) (s : Session) (rest : Bytes) : Session × Bytes × Except Errc Unit :=
  match fuel with
  | 0 => (s, rest, .ok ())
  | fuel + 1 =>
    if rest.length < frameHeaderSize then (s, rest, .ok ())
    else
      match decodeFrameHeader rest with
      | .error code => (s, rest, .error code)
      | .ok header =>
        if rest.length < frameHeaderSize + header.length then (s, rest, .ok ())
        else
          let payload := (rest.drop frameHeaderSize).take header.length
          let next := rest.drop (frameHeaderSize + header.length)
          match s.processFrame cfg header payload (completeBodyFollows cfg header next) with
          | (s, .error code) =>
            (s.queueConnectionError (if code = .messageSize then errorFrameSize else errorProtocol), rest, .error code)
          | (s, .ok _) => receiveLoop fuel s next

end Session

namespace Connection

/-- `receive`; an error keeps what was buffered. -/
def receive (cfg : SessionConfig) (c : Connection) (bytes : Bytes) : Connection × Except Errc Unit :=
  let hasBufferedTail := !c.input.isEmpty
  let source := c.input ++ bytes
  let kept := if hasBufferedTail then source else c.input
  let parse := fun (s : Session) (rest : Bytes) =>
    match s.receiveLoop cfg rest.length rest with
    | (session, _, .error code) => ({ session, receivedPreface := true, input := kept }, .error code)
    | (session, rest, .ok _) => ({ session, receivedPreface := true, input := rest }, .ok ())
  if c.receivedPreface then parse c.session source
  else if source.length < clientPreface.length then ({ c with input := source }, .ok ())
  else if source.take clientPreface.length ≠ clientPreface then
    ({ c with input := kept }, .error .protocolError)
  else
    parse (c.session.queueFrame { type := .settings } (encodeSettings cfg.localSettings)) (source.drop clientPreface.length)

end Connection

end Cnetmod.Http.V2
