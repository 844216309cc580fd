import Cnetmod.Coding.Bits

/-!
# WebSocket connection

`websocket_client_connection_impl.cpp`: what a connection writes on its own behalf and in
answer to control frames. `wrote` says whether `async_write_all` succeeds; a frame whose
write fails does not count as written.
-/
namespace Cnetmod.WebSocket

open Coding (Bytes)

inductive Opcode where
  | continuation | text | binary | close | ping | pong
  deriving DecidableEq

def Opcode.code : Opcode → Nat
  | .continuation => 0x0
  | .text => 0x1
  | .binary => 0x2
  | .close => 0x8
  | .ping => 0x9
  | .pong => 0xA

def Opcode.isControl (op : Opcode) : Bool := 0x8 ≤ op.code

structure Frame where
  op : Opcode
  payload : Bytes

inductive ConnectionError where
  | notConnected | alreadyClosed | writeFailed

structure Connection where
  connected : Bool := true
  closeSent : Bool := false
  closeReceived : Bool := false
  /-- Every frame written, in order. -/
  written : List Frame := []

namespace Connection

def write (c : Connection) (op : Opcode) (payload : Bytes) (wrote : Bool) : Connection :=
  if wrote then { c with written := c.written ++ [⟨op, payload⟩] } else c

/-- The checks with which `async_send` and `async_close` begin. -/
def refusal (c : Connection) : Option ConnectionError :=
  if !c.connected then some .notConnected else if c.closeSent then some .alreadyClosed else none

def asyncSend (c : Connection) (op : Opcode) (payload : Bytes) (wrote : Bool) : Except ConnectionError Unit × Connection :=
  match c.refusal with
  | some e => (.error e, c)
  | none => (if wrote then .ok () else .error .writeFailed, c.write op payload wrote)

def asyncPing (c : Connection) (payload : Bytes) (wrote : Bool) : Except ConnectionError Unit × Connection :=
  c.asyncSend .ping payload wrote

/-- The payload of a close frame that is not an answer. -/
def closePayload (code : UInt16) (reason : Bytes) : Bytes := (code >>> 8).toUInt8 :: code.toUInt8 :: reason

/-- `async_close` up to its wait for the peer. -/
def asyncClose (c : Connection) (code : UInt16) (reason : Bytes) (wrote : Bool) : Except ConnectionError Unit × Connection :=
  match c.refusal with
  | some e => (.error e, c)
  | none =>
    if wrote then (.ok (), { c.write .close (closePayload code reason) true with closeSent := true })
    else (.error .writeFailed, c)

/-- The end of `async_close`, after a message or an error of `async_recv`. -/
def finishClose (c : Connection) : Option Connection := if c.closeSent then some { c with connected := false } else none

def handleControlFrame (c : Connection) (op : Opcode) (payload : Bytes) (wrote : Bool) : Connection :=
  if op = .ping then c.write .pong payload wrote
  else if op = .close ∧ ¬ c.closeSent then { c.write .close payload wrote with closeSent := true }
  else c

/-- `parse_frame_header` refuses longer control frames. -/
def accepts (c : Connection) (payload : Bytes) : Bool := c.connected && decide (payload.length ≤ 125)

/-- A control frame in `async_recv`. -/
def receiveControl (c : Connection) (op : Opcode) (payload : Bytes) (wrote : Bool) : Option Connection :=
  if c.accepts payload then
    let c := c.handleControlFrame op payload wrote
    some (if op = .close then { c with closeReceived := true } else c)
  else none

/-- A ping in the message loop. -/
def loopPing (c : Connection) (payload : Bytes) (wrote : Bool) : Option Connection :=
  if c.accepts payload then some { c.write .pong payload wrote with connected := wrote } else none

/-- A close frame in the message loop that it takes; one with an invalid payload is a failure. -/
def loopClose (c : Connection) (payload : Bytes) (wrote : Bool) : Option Connection :=
  if c.accepts payload then
    let c := if c.closeSent then c else c.write .close payload wrote
    some { c with closeSent := true, closeReceived := true, connected := false }
  else none

/-- A failure of the message loop, reported to the peer with `code`. -/
def loopFailure (c : Connection) (code : UInt16) (wrote : Bool) : Option Connection :=
  if c.connected then
    let c := if c.closeSent then c else { c.write .close (closePayload code []) wrote with closeSent := true }
    some { c with connected := false }
  else none

end Connection

end Cnetmod.WebSocket
