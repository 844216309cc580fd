import Cnetmod.Coding.Digits
import Cnetmod.Coding.Search

/-!
# The HTTP/1 request parser (`http/v1/http_v1_parser.cpp`)

The receive buffer, the read position and the offsets of the header fields are
those of the source. `missing_header` is `none`. Sums of positions inside a
buffer do not overflow; the sum of a position and a chunk size does. A string
that would grow beyond its largest size throws.
-/
namespace Cnetmod.Http.V1

open Coding

/-- The `http_errc` values of the request parser, and the exception of `std::string`. -/
inductive Errc where
  | invalidMethod
  | invalidUri
  | invalidVersion
  | invalidHeader
  | headerTooLarge
  | bodyTooLarge
  | invalidChunk
  | lengthError
  deriving DecidableEq

inductive HttpMethod where
  | get | head | post | put | delete | connect | options | trace | patch
  deriving DecidableEq

inductive HttpVersion where
  | http10 | http11 | http2 | http3
  deriving DecidableEq

def stringToMethod (s : Bytes) : Option HttpMethod :=
  if s = "GET" then some .get
  else if s = "HEAD" then some .head
  else if s = "POST" then some .post
  else if s = "PUT" then some .put
  else if s = "DELETE" then some .delete
  else if s = "CONNECT" then some .connect
  else if s = "OPTIONS" then some .options
  else if s = "TRACE" then some .trace
  else if s = "PATCH" then some .patch
  else none

def stringToVersion (s : Bytes) : Option HttpVersion :=
  if s = "HTTP/1.0" then some .http10
  else if s = "HTTP/1.1" then some .http11
  else if s = "HTTP/2" ∨ s = "h2" then some .http2
  else if s = "HTTP/3" ∨ s = "h3" then some .http3
  else none

def maxHeaderSize : Nat := 16 * 1024

def maxBodySize : Nat := 32 * 1024 * 1024

/-- `std::string::max_size`. -/
def stringMaxSize : Nat := 2 ^ 63 - 2

def asciiLower (value : UInt8) : UInt8 := if 65 ≤ value ∧ value ≤ 90 then value + 32 else value

def headerHash (value : Bytes) : UInt64 :=
  value.foldl (fun result c => (result ^^^ (asciiLower c).toUInt64) * 1099511628211) 1469598103934665603

def headerEqual (left right : Bytes) : Bool := left.map asciiLower == right.map asciiLower

/-- The names with a slot of their own, in the order in which they are compared. -/
def commonHeaderNames : List (Bytes × Nat) :=
  [("Host", 0), ("Range", 7), ("Accept", 17), ("Origin", 8),
   ("Cookie", 15), ("Upgrade", 16), ("Forwarded", 9), ("X-Real-IP", 11),
   ("Connection", 1), ("Tracestate", 13), ("User-Agent", 14),
   ("Traceparent", 12), ("Content-Type", 4), ("Authorization", 5),
   ("Content-Length", 2), ("Accept-Encoding", 6), ("X-Forwarded-For", 10),
   ("Transfer-Encoding", 3)]

def commonHeaderSlot (name : Bytes) : Option Nat :=
  (commonHeaderNames.find? fun common => headerEqual name common.1).map Prod.snd

def crlf : Bytes := [13, 10]

def findCrlf (data : Bytes) : Option Nat := find crlf data

def isBlank (c : UInt8) : Bool := c = 32 ∨ c = 9

def trim (value : Bytes) : Bytes :=
  ((value.dropWhile isBlank).reverse.dropWhile isBlank).reverse

/-- How many bytes `trim` takes away at the front. -/
def trimmed (value : Bytes) : Nat := (value.takeWhile isBlank).length

def completedChunkedMessageSize (readable : Bytes) (chunkSizeLineEnd : Nat) : Option Nat :=
  let trailerStart := chunkSizeLineEnd + 2
  let trailers := readable.drop trailerStart
  if crlf <+: trailers then some (trailerStart + 2)
  else (find (crlf ++ crlf) trailers).map fun trailerEnd => trailerStart + trailerEnd + 4

inductive State where
  | requestLine | headers | body
  deriving DecidableEq

/-- `header_field`: where its name and value are. -/
structure FieldView where
  nameOffset : Nat := 0
  nameSize : Nat := 0
  valueOffset : Nat := 0
  valueSize : Nat := 0
  duplicate : Bool := false
  deriving DecidableEq

structure RequestParser where
  buf : Bytes := []
  body : Bytes := []
  headerStorage : Bytes := []
  methodOffset : Nat := 0
  methodSize : Nat := 0
  uriOffset : Nat := 0
  uriSize : Nat := 0
  methodEnum : Option HttpMethod := none
  version : HttpVersion := .http11
  headerFields : List FieldView := []
  headerIndex : List (Option Nat) := []
  commonHeaders : List (Option Nat) := List.replicate 18 none
  state : State := .requestLine
  readPos : Nat := 0
  headerBytes : Nat := 0
  bodyBytesRemaining : Nat := 0
  bodyBytesReceived : Nat := 0
  messageStart : Nat := 0
  headerEnd : Nat := 0
  headersPreserved : Bool := false
  chunked : Bool := false
  headersReady : Bool := false
  ready : Bool := false
  deriving DecidableEq

/-- The bytes of a view. -/
def slice (storage : Bytes) (offset size : Nat) : Bytes := (storage.drop offset).take size

namespace RequestParser

/-- The string the offsets point into. -/
def storage (s : RequestParser) : Bytes := if s.headersPreserved then s.headerStorage else s.buf

def method (s : RequestParser) : Bytes := slice s.storage s.methodOffset s.methodSize

def uri (s : RequestParser) : Bytes := slice s.storage s.uriOffset s.uriSize

def readableBuffer (s : RequestParser) : Bytes := s.buf.drop s.readPos

def headerName (s : RequestParser) (index : Nat) : Bytes :=
  let field := s.headerFields.getD index {}
  slice s.storage field.nameOffset field.nameSize

def headerValue (s : RequestParser) (index : Nat) : Bytes :=
  let field := s.headerFields.getD index {}
  slice s.storage field.valueOffset field.valueSize

/-- One field entered into `header_map`: repeated names are joined. -/
def addHeader (headers : List (Bytes × Bytes)) (name value : Bytes) : List (Bytes × Bytes) :=
  if headers.any fun header => headerEqual header.1 name then
    headers.map fun header =>
      if headerEqual header.1 name then (header.1, header.2 ++ ", " ++ value) else header
  else headers ++ [(name, value)]

def materializeHeaders (s : RequestParser) : List (Bytes × Bytes) :=
  (List.range s.headerFields.length).foldl
    (fun headers index => addHeader headers (s.headerName index) (s.headerValue index)) []

def findProbe (s : RequestParser) (name : Bytes) : Nat → Nat → Option Nat
  | 0, _ => none
  | probes + 1, bucket =>
    match s.headerIndex.getD bucket none with
    | none => none
    | some index =>
      if headerEqual (s.headerName index) name then some index
      else findProbe s name probes ((bucket + 1) &&& (s.headerIndex.length - 1))

def findHeader (s : RequestParser) (name : Bytes) : Option Nat :=
  match commonHeaderSlot name with
  | some common => s.commonHeaders.getD common none
  | none =>
    if s.headerIndex = [] then none
    else s.findProbe name s.headerIndex.length ((headerHash name).toNat &&& (s.headerIndex.length - 1))

def getHeader (s : RequestParser) (k : Bytes) : Bytes :=
  match s.findHeader k with
  | none => []
  | some index =>
    if (s.headerFields.getD index {}).duplicate then
      ((s.materializeHeaders.find? fun header => headerEqual header.1 k).map Prod.snd).getD []
    else s.headerValue index

def commonHeaderValue (s : RequestParser) (slot : Nat) (name : Bytes) : Bytes :=
  match s.commonHeaders.getD slot none with
  | none => []
  | some index => if (s.headerFields.getD index {}).duplicate then s.getHeader name else s.headerValue index

def resetMessageState (s : RequestParser) : RequestParser :=
  { buf := s.buf
    headerStorage := s.headerStorage
    readPos := s.readPos
    messageStart := s.messageStart }

/-- The two allocations may change places; both are empty then. -/
def reset (s : RequestParser) : RequestParser :=
  resetMessageState { s with buf := [], headerStorage := [], readPos := 0, messageStart := 0 }

def resetForNextMessage (s : RequestParser) : RequestParser :=
  let s :=
    if s.readPos = s.buf.length then { s with buf := [], readPos := 0 }
    else if s.readPos ≥ 16 * 1024 then { s with buf := s.buf.drop s.readPos, readPos := 0 }
    else s
  resetMessageState { s with messageStart := s.readPos, headerStorage := [] }

def compactBuffer (s : RequestParser) : RequestParser :=
  if ¬ s.headersReady then s
  else if s.readPos = 0 then s
  else if s.readPos = s.buf.length then { s with buf := [], readPos := 0 }
  else if s.readPos ≥ 8192 then { s with buf := s.buf.drop s.readPos, readPos := 0 }
  else s

def takeBodyChunk (s : RequestParser) : RequestParser × Bytes := ({ s with body := [] }, s.body)

def preserveHeaders (s : RequestParser) : RequestParser :=
  if s.headersPreserved ∨ ¬ s.headersReady then s
  else
    { s with
      headerStorage := slice s.buf s.messageStart (s.headerEnd - s.messageStart)
      methodOffset := s.methodOffset - s.messageStart
      uriOffset := s.uriOffset - s.messageStart
      headerFields := s.headerFields.map fun field =>
        { field with
          nameOffset := field.nameOffset - s.messageStart
          valueOffset := field.valueOffset - s.messageStart }
      headersPreserved := true }

def takeBufferedData (s : RequestParser) : RequestParser × Bytes :=
  if ¬ s.ready then (s, [])
  else
    let s := s.preserveHeaders
    ({ s with buf := [], readPos := 0 }, s.readableBuffer)

/-- The line is the one at the read position. -/
def parseRequestLine (s : RequestParser) (l : Bytes) : RequestParser × Except Errc Unit :=
  match find " " l with
  | none => (s, .error .invalidMethod)
  | some a =>
    let s := { s with
      methodOffset := s.readPos
      methodSize := a
      methodEnum := stringToMethod (l.take a) }
    let r := l.drop (a + 1)
    match find " " r with
    | none => (s, .error .invalidUri)
    | some b =>
      let s := { s with uriOffset := s.readPos + (a + 1), uriSize := b }
      match stringToVersion (r.drop (b + 1)) with
      | none => (s, .error .invalidVersion)
      | some version => ({ s with version }, .ok ())

def parseHeaderLine (s : RequestParser) (l : Bytes) : RequestParser × Except Errc Unit :=
  match find ":" l with
  | none => (s, .error .invalidHeader)
  | some c =>
    let k := trim (l.take c)
    let v := trim (l.drop (c + 1))
    if k = [] then (s, .error .invalidHeader)
    else
      let field : FieldView :=
        { nameOffset := s.readPos + trimmed (l.take c)
          nameSize := k.length
          valueOffset := s.readPos + (c + 1) + trimmed (l.drop (c + 1))
          valueSize := v.length }
      ({ s with headerFields := s.headerFields ++ [field] }, .ok ())

def markDuplicate (s : RequestParser) (index : Nat) : RequestParser :=
  { s with headerFields := s.headerFields.modify index fun field => { field with duplicate := true } }

/-- The search for a bucket; the table is never full. -/
def insertProbe (name : Bytes) (index : Nat) : Nat → Nat → RequestParser → RequestParser
  | 0, _, s => s
  | probes + 1, bucket, s =>
    match s.headerIndex.getD bucket none with
    | none => { s with headerIndex := s.headerIndex.set bucket (some index) }
    | some existing =>
      if headerEqual (s.headerName existing) name then s.markDuplicate existing
      else insertProbe name index probes ((bucket + 1) &&& (s.headerIndex.length - 1)) s

def indexHeader (capacity : Nat) (s : RequestParser) (index : Nat) : RequestParser :=
  let name := s.headerName index
  match commonHeaderSlot name with
  | some common =>
    match s.commonHeaders.getD common none with
    | none => { s with commonHeaders := s.commonHeaders.set common (some index) }
    | some first => s.markDuplicate first
  | none =>
    let s := if s.headerIndex = [] then { s with headerIndex := List.replicate capacity none } else s
    insertProbe name index s.headerIndex.length ((headerHash name).toNat &&& (s.headerIndex.length - 1)) s

/-- Doubled from 8 on until half of it holds all fields. -/
def indexCapacity (fields : Nat) : Nat → Nat → Nat
  | 0, capacity => capacity
  | fuel + 1, capacity => if capacity < fields * 2 then indexCapacity fields fuel (capacity * 2) else capacity

def finalizeHeaders (s : RequestParser) : RequestParser :=
  let capacity := indexCapacity s.headerFields.length s.headerFields.length 8
  (List.range s.headerFields.length).foldl (indexHeader capacity) { s with headerEnd := s.readPos, headerIndex := [] }

def prepareBody (s : RequestParser) : RequestParser × Bool :=
  let t := s.commonHeaderValue 3 "Transfer-Encoding"
  if (find "chunked" t).isSome then ({ s with chunked := true }, true)
  else
    let c := s.commonHeaderValue 2 "Content-Length"
    match fromChars 10 c with
    | none => (s, false)
    | some n =>
      if n = 0 then (s, false)
      else if n > maxBodySize then (s, false)
      else ({ s with bodyBytesRemaining := n }, true)

/-- Each round takes a chunk. `start + n + 2` is computed in 64 bits. -/
def chunkLoop : Nat → RequestParser → RequestParser × Except Errc Bool
  | 0, s => (s, .ok false)
  | fuel + 1, s =>
    let readable := s.readableBuffer
    match findCrlf readable with
    | none => (s, .ok false)
    | some p =>
      match fromChars 16 (readable.take p) with
      | none => (s, .error .invalidChunk)
      | some n =>
        if n = 0 then
          match completedChunkedMessageSize readable p with
          | none => if readable.length > maxHeaderSize then (s, .error .headerTooLarge) else (s, .ok false)
          | some completed => ({ s with readPos := s.readPos + completed }, .ok true)
        else
          let start := p + 2
          if readable.length < (start + n + 2) % 2 ^ 64 then (s, .ok false)
          else if s.body.length + n > stringMaxSize then (s, .error .lengthError)
          else
            let s := { s with
              body := s.body ++ slice readable start n
              bodyBytesReceived := s.bodyBytesReceived + n
              readPos := s.readPos + (start + n + 2) }
            if s.bodyBytesReceived > maxBodySize then (s, .error .bodyTooLarge)
            else chunkLoop fuel s

def processChunkedBody (s : RequestParser) : RequestParser × Except Errc Bool :=
  chunkLoop (s.readableBuffer.length + 1) s

/-- The empty line after the header fields. -/
def completeHead (s : RequestParser) : RequestParser :=
  let s := finalizeHeaders { s with readPos := s.readPos + 2, headerBytes := s.headerBytes + 2 }
  match prepareBody { s with headersReady := true } with
  | (s, false) => { s with ready := true }
  | (s, true) => { s with state := .body }

/-- One pass through the switch in `consume`, with the result if it returns. -/
def parseStep (s : RequestParser) : RequestParser × Option (Except Errc Unit) :=
  match s.state with
  | .requestLine =>
    let readable := s.readableBuffer
    match findCrlf readable with
    | none => (s, some (if readable.length > maxHeaderSize then .error .headerTooLarge else .ok ()))
    | some pos =>
      match s.parseRequestLine (readable.take pos) with
      | (s, .error e) => (s, some (.error e))
      | (s, .ok _) =>
        ({ s with
          headerBytes := s.headerBytes + (pos + 2)
          readPos := s.readPos + (pos + 2)
          state := .headers }, none)
  | .headers =>
    let readable := s.readableBuffer
    match findCrlf readable with
    | none =>
      (s, some (if s.headerBytes + readable.length > maxHeaderSize then .error .headerTooLarge
        else .ok ()))
    | some pos =>
      if pos = 0 then (s.completeHead, none)
      else
        match s.parseHeaderLine (readable.take pos) with
        | (s, .error e) => (s, some (.error e))
        | (s, .ok _) =>
          ({ s with
            headerBytes := s.headerBytes + (pos + 2)
            readPos := s.readPos + (pos + 2) }, none)
  | .body =>
    if s.chunked then
      match s.processChunkedBody with
      | (s, .error e) => (s, some (.error e))
      | (s, .ok false) => (s, some (.ok ()))
      | (s, .ok true) => ({ s with ready := true }, none)
    else
      let take := min s.readableBuffer.length s.bodyBytesRemaining
      let s := { s with
        body := s.body ++ s.readableBuffer.take take
        bodyBytesReceived := s.bodyBytesReceived + take
        readPos := s.readPos + take
        bodyBytesRemaining := s.bodyBytesRemaining - take }
      if s.bodyBytesRemaining ≠ 0 then (s, some (.ok ())) else ({ s with ready := true }, none)

def consumeLoop : Nat → RequestParser → RequestParser × Except Errc Unit
  | 0, s => (s, .ok ())
  | fuel + 1, s =>
    if s.ready then (s, .ok ())
    else
      match s.parseStep with
      | (s, some result) => (s, result)
      | (s, none) => consumeLoop fuel s

/-- What `consume` does before it appends. -/
def makeRoom (s : RequestParser) (data : Bytes) : RequestParser :=
  compactBuffer (if data ≠ [] ∧ s.headersReady ∧ ¬ s.headersPreserved then s.preserveHeaders else s)

/-- Every pass takes a line, or is the one over the body. -/
def consume (s : RequestParser) (data : Bytes) : RequestParser × Except Errc Nat :=
  if s.ready then (s, .ok 0)
  else
    let s := s.makeRoom data
    if s.buf.length + data.length > stringMaxSize then (s, .error .lengthError)
    else
      let s := { s with buf := s.buf ++ data }
      match consumeLoop (s.readableBuffer.length + 3) s with
      | (s, .error e) => (s, .error e)
      | (s, .ok _) => (s, .ok data.length)

end RequestParser

end Cnetmod.Http.V1
