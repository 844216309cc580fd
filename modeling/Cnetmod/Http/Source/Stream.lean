import Cnetmod.Http.Source.Frame

/-!
# Streams and request bodies (`http/v2/stream.cpp`, `http/message/http_semantics.cpp`)

A body stream is the bounded channel a streaming handler reads from. Handlers
take chunks out between the steps of the session.
-/
namespace Cnetmod.Http.V2

open Coding

structure RequestBodyStreamOptions where
  maxBytes : Nat := 32 * 1024 * 1024
  chunkCapacity : Nat := 16

structure RequestBodyStream where
  chunkCapacity : Nat
  maxBytes : Nat
  chunks : List Bytes := []
  closed : Bool := false
  receivedBytes : Nat := 0
  error : Option Errc := none

namespace RequestBodyStream

def close (b : RequestBodyStream) : RequestBodyStream := { b with closed := true }

/-- The first error stays. -/
def fail (b : RequestBodyStream) (code : Errc) : RequestBodyStream :=
  { b with error := b.error <|> some code, closed := true }

def canAccept (b : RequestBodyStream) (bytes : Nat) : RequestBodyStream × Bool :=
  if b.closed then (b, false)
  else if bytes > b.maxBytes - min b.maxBytes b.receivedBytes then (b.fail .messageSize, false)
  else (b, true)

def push (b : RequestBodyStream) (chunk : Bytes) : RequestBodyStream × Bool :=
  let (b, accepts) := b.canAccept chunk.length
  if accepts && b.chunkCapacity > 0 && b.chunks.length < b.chunkCapacity then
    ({ b with
        chunks := b.chunks ++ [chunk]
        receivedBytes := b.receivedBytes + chunk.length }, true)
  else (b, false)

end RequestBodyStream

inductive StreamState where
  | idle
  | open
  | halfClosedLocal
  | halfClosedRemote
  | closed
  deriving DecidableEq

structure Stream where
  id : Nat
  state : StreamState := .idle
  receiveWindow : FlowWindow
  sendWindow : FlowWindow
  headers : List HeaderField := []
  body : Bytes := []
  bodyStream : Option RequestBodyStream := none

namespace Stream

def receiveHeaders (s : Stream) (fields : List HeaderField) (endStream : Bool) : Stream × Bool :=
  if s.state ≠ .idle ∧ s.state ≠ .open then (s, false)
  else
    ({ s with headers := fields, state := if endStream then .halfClosedRemote else .open }, true)

/-- Opens the stream for the fields that are decoded next. -/
def prepareHeaders (s : Stream) (endStream : Bool) : Option Stream :=
  if s.state ≠ .idle ∧ s.state ≠ .open then none
  else some { s with state := if endStream then .halfClosedRemote else .open }

/-- The window is charged even when the body refuses the chunk. -/
def receiveData (s : Stream) (data : Bytes) (endStream : Bool) : Stream × Bool :=
  if s.state ≠ .open then (s, false)
  else
    match s.receiveWindow.consume data.length with
    | none => (s, false)
    | some receiveWindow =>
      let s := { s with receiveWindow }
      let close := fun s : Stream =>
        if endStream then
          { s with
            state := .halfClosedRemote
            bodyStream := s.bodyStream.map RequestBodyStream.close }
        else s
      match s.bodyStream with
      | some body =>
        let (body, pushed) := body.push data
        let s := { s with bodyStream := some body }
        if pushed then (close s, true) else (s, false)
      | none => (close { s with body := s.body ++ data }, true)

end Stream

end Cnetmod.Http.V2
