import Cnetmod.Coding.RingBuffer

/-!
# Bounded channel

`channel.cppm`: every function is one section under the lock of the channel.
`await_ready` and `await_suspend` are two sections. What a section hands to coroutines
that wait is part of its result; they are resumed after the lock is released.
-/
namespace Cnetmod.Coro

open Coding (RingBuffer)

/-- Coroutines that wait are known by the number of their call. -/
structure Channel (α : Type*) where
  capacity : Nat
  ring : RingBuffer α
  closed : Bool := false
  /-- The senders that wait, with their values. -/
  senders : List (Nat × α) := []
  receivers : List Nat := []

/-- How a value that is offered fares. -/
inductive Offer where
  | closed
  | handed (receiver : Nat)
  | buffered
  | full
  deriving DecidableEq

def Offer.accepted : Offer → Bool
  | handed _ | buffered => true
  | closed | full => false

namespace Channel

variable {α : Type*}

def new (capacity : Nat) : Channel α where
  capacity
  ring := .new capacity

def bufEmpty (ch : Channel α) : Bool := ch.ring.count = 0

def bufFull (ch : Channel α) : Bool := ch.ring.count = ch.capacity

/-- What all forms of sending do: a receiver that waits is served first, then there is the buffer. -/
def offer (ch : Channel α) (value : α) : Offer × Channel α :=
  if ch.closed then (.closed, ch)
  else
    match ch.receivers with
    | receiver :: receivers => (.handed receiver, { ch with receivers })
    | [] =>
      if 0 < ch.capacity && !ch.bufFull then (.buffered, { ch with ring := ch.ring.push value })
      else (.full, ch)

/-- `send_awaitable::await_ready`. -/
def sendAwaitReady (ch : Channel α) (value : α) : Offer × Channel α := ch.offer value

/-- `send_awaitable::await_suspend`: whether the coroutine waits. -/
def sendAwaitSuspend (ch : Channel α) (call : Nat) (value : α) : Bool × Channel α :=
  if ch.closed then (false, ch) else (true, { ch with senders := ch.senders ++ [(call, value)] })

def trySend (ch : Channel α) (value : α) : Offer × Channel α := ch.offer value

/-- The receiver is left to the caller to resume. -/
def trySendDeferred (ch : Channel α) (value : α) : Offer × Channel α := ch.offer value

/-- The last part is the caller's object, from which an accepted value has been moved. -/
def trySendMove (ch : Channel α) (value : α) : Offer × Channel α × Option α :=
  let (answer, ch) := ch.offer value
  (answer, ch, if answer.accepted then none else some value)

/-- The first loop of `try_send_many_move`: the receivers served, and what is left of values and receivers. -/
def handMany : List α → List Nat → List (Nat × α) × List α × List Nat
  | value :: values, receiver :: receivers =>
    let (handed, values, receivers) := handMany values receivers
    ((receiver, value) :: handed, values, receivers)
  | values, receivers => ([], values, receivers)

/-- The loops that fill the buffer: the items whose values found room, and those that did not. -/
def fill {β : Type*} (value : β → α) (capacity : Nat) (ring : RingBuffer α) : List β → List β × List β × RingBuffer α
  | [] => ([], [], ring)
  | item :: items =>
    if 0 < capacity && !decide (ring.count = capacity) then
      let (pushed, left, ring) := fill value capacity (ring.push (value item)) items
      (item :: pushed, left, ring)
    else ([], item :: items, ring)

/-- The receivers served with their values, the values buffered, and those left with the caller. -/
def trySendManyMove (ch : Channel α) (values : List α) : List (Nat × α) × List α × List α × Channel α :=
  if ch.closed then ([], [], values, ch)
  else
    let (handed, values, receivers) := handMany values ch.receivers
    let (pushed, left, ring) := fill id ch.capacity ch.ring values
    (handed, pushed, left, { ch with receivers, ring })

/-- A value of the buffer, whose slot goes to the first sender that waits. -/
def takeBuffered (ch : Channel α) : Option α × Option (Nat × α) × Channel α :=
  let (value, ring) := ch.ring.pop
  match ch.senders with
  | sender :: senders => (value, some sender, { ch with ring := ring.push sender.2, senders })
  | [] => (value, none, { ch with ring })

/-- What `receive` and `try_receive` do: the value, and the sender that could go on. -/
def take (ch : Channel α) : Option α × Option (Nat × α) × Channel α :=
  if ch.bufEmpty then
    match ch.senders with
    | sender :: senders => (some sender.2, some sender, { ch with senders })
    | [] => (none, none, ch)
  else ch.takeBuffered

/-- `recv_awaitable::await_ready`: it is ready with a value, and without one when the channel is closed. -/
def recvAwaitReady (ch : Channel α) : Option α × Option (Nat × α) × Channel α := ch.take

/-- `recv_awaitable::await_suspend`: whether the coroutine waits. -/
def recvAwaitSuspend (ch : Channel α) (call : Nat) : Bool × Channel α :=
  if ch.closed then (false, ch) else (true, { ch with receivers := ch.receivers ++ [call] })

def tryReceive (ch : Channel α) : Option α × Option (Nat × α) × Channel α := ch.take

def tryReceiveBufferedRefill (ch : Channel α) : Option α × Option (Nat × α) × Channel α :=
  if ch.bufEmpty then (none, none, ch) else ch.takeBuffered

def tryReceiveMany (ch : Channel α) (maxItems : Nat) : List α × List (Nat × α) × Channel α :=
  let (values, ring) := ch.ring.popMany (min maxItems ch.ring.count)
  let (accepted, senders, ring) := fill Prod.snd ch.capacity ring ch.senders
  (values, accepted, { ch with ring, senders })

/-- The values discarded; nothing when it fails. -/
def reopen (ch : Channel α) : Option (List α × Channel α) :=
  if !ch.closed || !ch.senders.isEmpty || !ch.receivers.isEmpty then none
  else
    let (values, ring) := ch.ring.popMany ch.ring.count
    some (values, { ch with ring := { ring with readPos := 0, writePos := 0 }, closed := false })

/-- The senders and the receivers that waited, who get nothing. -/
def close (ch : Channel α) : List (Nat × α) × List Nat × Channel α :=
  if ch.closed then ([], [], ch)
  else (ch.senders, ch.receivers, { ch with closed := true, senders := [], receivers := [] })

end Channel

end Cnetmod.Coro
