import Mathlib.Data.List.TakeDrop
import Cnetmod.Coding.SortedMap

/-!
# Streams

`quic_stream.cpp`: the two stores of received bytes, the end of the stream and the
state of both directions. Counters do not wrap: a range that would is refused.
-/
namespace Cnetmod.Quic

open List

open Coding (Bytes SortedMap)

inductive QuicRole where
  | client
  | server
  deriving DecidableEq

def isClientInitiated (id : Nat) : Bool := id &&& 0x01 = 0

def isServerInitiated (id : Nat) : Bool := id &&& 0x01 = 1

inductive StreamState where
  | idle
  | «open»
  | halfClosedLocal
  | halfClosedRemote
  | closed
  deriving DecidableEq

inductive StreamError where
  | finalSizeError
  | flowControlError
  | protocolViolation
  | operationCanceled
  | operationWouldBlock
  | operationNotPermitted
  deriving DecidableEq

def inlineCapacity : Nat := 192

/-- `memcpy` of bytes to a place in a buffer. -/
def overwrite (buffer : Bytes) (place : Nat) (bytes : Bytes) : Bytes :=
  buffer.take place ++ bytes ++ buffer.drop (place + bytes.length)

lemma length_overwrite (hf : place + bs.length ≤ buf.length) : (overwrite buf place bs).length = buf.length := by
  simp only [overwrite, length_append, length_take, length_drop]
  omega

/-- `in_order_bytes`: the unread bytes lie between two places of the inline storage, or of the heap
once they have outgrown it. -/
structure InOrderBytes where
  inlineStorage : Bytes
  heap : Bytes
  beginAt : Nat
  endAt : Nat
  inlined : inlineStorage.length = inlineCapacity
  ordered : beginAt ≤ endAt
  within : endAt ≤ (if heap = [] then inlineStorage else heap).length

namespace InOrderBytes

variable (b : InOrderBytes)

def new : InOrderBytes where
  inlineStorage := List.replicate inlineCapacity 0
  heap := []
  beginAt := 0
  endAt := 0
  inlined := length_replicate
  ordered := Nat.le_refl _
  within := Nat.zero_le _

def data (b : InOrderBytes) : Bytes := if b.heap = [] then b.inlineStorage else b.heap

def capacity (b : InOrderBytes) : Nat := b.data.length

def size (b : InOrderBytes) : Nat := b.endAt - b.beginAt

def unread (b : InOrderBytes) : Bytes := (b.data.drop b.beginAt).take b.size

lemma length_unread : b.unread.length = b.size := by
  have hw : b.endAt ≤ b.data.length := b.within
  rw [unread, length_take, length_drop, size]
  omega

lemma unread_fits : 0 + b.unread.length ≤ b.data.length := by
  have hw : b.endAt ≤ b.data.length := b.within
  rw [length_unread, size]
  omega

/-- The storage in use with other contents and places. -/
def store (b : InOrderBytes) (contents : Bytes) (same : contents.length = b.data.length) (beginAt endAt : Nat)
    (ordered : beginAt ≤ endAt) (within : endAt ≤ contents.length) : InOrderBytes :=
  if onHeap : b.heap = [] then
    { inlineStorage := contents, heap := [], beginAt, endAt, ordered
      inlined := by rw [same, data, if_pos onHeap, b.inlined]
      within := by rwa [if_pos rfl] }
  else
    { inlineStorage := b.inlineStorage, heap := contents, beginAt, endAt, ordered, inlined := b.inlined
      within := by
        have filled : contents ≠ [] := by
          rw [← length_pos_iff, same, data, if_neg onHeap]
          exact length_pos_of_ne_nil onHeap
        rwa [if_neg filled] }

/-- The unread bytes at the beginning of a new heap block. -/
def grow (b : InOrderBytes) (count : Nat) : InOrderBytes :=
  let grown := overwrite (List.replicate (max (b.capacity * 2) (b.size + count)) 0) 0 b.unread
  have whole : grown.length = max (b.capacity * 2) (b.size + count) := by
    rw [length_overwrite] <;> simp only [length_replicate, length_unread]
    omega
  { inlineStorage := b.inlineStorage, heap := grown, beginAt := 0, endAt := b.size, inlined := b.inlined
    ordered := Nat.zero_le _
    within := by
      split
      next none =>
        rw [none, length_nil] at whole
        omega
      · omega }

/-- The unread bytes at the beginning of the storage in use. -/
def compact (b : InOrderBytes) : InOrderBytes :=
  b.store (overwrite b.data 0 b.unread) (length_overwrite b.unread_fits) 0 b.size (Nat.zero_le _) (by
    rw [length_overwrite b.unread_fits, ← length_unread, ← Nat.zero_add b.unread.length]
    exact b.unread_fits)

/-- The storage gets room for further bytes behind the unread ones. They move to its front when the
consumed bytes outweigh them. -/
def makeRoom (b : InOrderBytes) (count : Nat) : InOrderBytes :=
  if b.endAt + count ≤ b.capacity then b
  else if b.size + count ≤ b.capacity ∧ b.size ≤ b.beginAt then b.compact
  else b.grow count

lemma endAt_store {b : InOrderBytes} {hs : contents.length = b.data.length} : (b.store contents hs i j ho hw).endAt = j := by
  unfold store
  split <;> rfl

lemma beginAt_store {b : InOrderBytes} {hs : contents.length = b.data.length} : (b.store contents hs i j ho hw).beginAt = i := by
  unfold store
  split <;> rfl

lemma data_store {b : InOrderBytes} {hs : contents.length = b.data.length} : (b.store contents hs i j hr hw).data = contents := by
  unfold store
  split
  · rfl
  rename_i ho
  have hf : contents ≠ [] := by
    rw [← length_pos_iff, hs, data, if_neg ho]
    exact length_pos_of_ne_nil ho
  exact if_neg hf

lemma data_grow (n : Nat) (hm : 0 < b.size + n) :
    (b.grow n).data = overwrite (List.replicate (max (b.capacity * 2) (b.size + n)) 0) 0 b.unread := by
  refine if_neg fun none => ?_
  have hw := congrArg length none
  rw [grow, length_overwrite, length_nil, length_replicate] at hw
  · omega
  · simp only [length_replicate, length_unread]
    omega

lemma makeRoom_fits (some : 0 < n) : (b.makeRoom n).endAt + n ≤ (b.makeRoom n).data.length := by
  unfold makeRoom
  split
  next hf => exact hf
  split
  next he =>
    rw [compact, endAt_store, data_store, length_overwrite b.unread_fits]
    exact he.1
  rw [data_grow b n (by omega), length_overwrite, length_replicate]
  · exact le_max_right _ _
  · simp only [length_replicate, length_unread]
    omega

/-- Bytes behind the unread ones, where there is room. -/
def write (b : InOrderBytes) (bytes : Bytes) (fits : b.endAt + bytes.length ≤ b.data.length) : InOrderBytes :=
  b.store (overwrite b.data b.endAt bytes) (length_overwrite fits) b.beginAt (b.endAt + bytes.length)
    (Nat.le_add_right_of_le b.ordered) (by rw [length_overwrite fits]; exact fits)

def append (b : InOrderBytes) (bytes : Bytes) : InOrderBytes :=
  if none : bytes = [] then b
  else (b.makeRoom bytes.length).write bytes (makeRoom_fits b (length_pos_of_ne_nil none))

def consume (b : InOrderBytes) (count : Nat) (inside : count ≤ b.size) : InOrderBytes :=
  if b.beginAt + count = b.endAt then { b with beginAt := 0, endAt := 0, ordered := Nat.le_refl _, within := Nat.zero_le _ }
  else { b with
    beginAt := b.beginAt + count
    ordered := by
      have := b.ordered
      unfold size at inside
      omega }

def clear (b : InOrderBytes) : InOrderBytes where
  inlineStorage := b.inlineStorage
  heap := []
  beginAt := 0
  endAt := 0
  inlined := b.inlined
  ordered := Nat.le_refl _
  within := Nat.zero_le _

end InOrderBytes

structure QuicStream where
  id : Nat
  owner : QuicRole
  bidirectional : Bool := true
  state : StreamState := .idle
  inOrder : InOrderBytes := .new
  receiveBuffer : SortedMap Nat Bytes := .empty
  nextExpectedOffset : Nat := 0
  highestReceivedOffset : Nat := 0
  finalSize : Option Nat := none
  receiveAbandoned : Bool := false
  totalSent : Nat := 0
  maxData : Nat := 65536
  maxSendData : Nat := 262144

namespace QuicStream

def init (st : QuicStream) : QuicStream :=
  if st.state ≠ .idle then st
  else if st.bidirectional = false then
    let isLocal := isClientInitiated st.id = (st.owner = .client)
    { st with state := if isLocal then .halfClosedRemote else .halfClosedLocal }
  else if st.owner = .client ∧ isClientInitiated st.id ∨ st.owner = .server ∧ isServerInitiated st.id then
    { st with state := .open }
  else st

def setInitialReceiveLimit (st : QuicStream) (maximum : Nat) : QuicStream := { st with maxData := maximum }

def extendReceiveLimit (st : QuicStream) (maximum : Nat) : QuicStream :=
  { st with maxData := max st.maxData maximum }

/-- The state when the local direction ends. -/
def applyCloseLocalState (st : QuicStream) : QuicStream :=
  if st.state = .closed then st
  else { st with state := if st.state = .halfClosedRemote then .closed else .halfClosedLocal }

def closeRemote (st : QuicStream) : QuicStream :=
  if st.state = .closed then st
  else { st with state := if st.state = .halfClosedLocal then .closed else .halfClosedRemote }

def stopLocal (st : QuicStream) : QuicStream :=
  if st.state = .halfClosedRemote then { st with state := .closed }
  else if st.state ≠ .closed then { st with state := .halfClosedLocal }
  else st

def applySendState (st : QuicStream) (data : Bytes) : Except StreamError Unit × QuicStream :=
  if st.state = .closed ∨ st.state = .halfClosedLocal then (.error .operationNotPermitted, st)
  else if st.maxSendData - st.totalSent < data.length then (.error .flowControlError, st)
  else
    (.ok (), { st with
      totalSent := st.totalSent + data.length
      state := if data = [] then if st.state = .halfClosedRemote then .closed else .halfClosedLocal else st.state })

def hasBufferedData (st : QuicStream) : Bool := st.inOrder.size ≠ 0 || st.receiveBuffer.records ≠ []

/-- The receive direction has ended. -/
def remoteEnded (st : QuicStream) : Bool := st.state = .closed || st.state = .halfClosedRemote

/-- The receive direction ends when everything up to the final size is consumed. -/
def endIfConsumed (st : QuicStream) : QuicStream :=
  if st.finalSize = some st.nextExpectedOffset ∧ st.hasBufferedData = false then
    { st with state := if st.state = .halfClosedLocal then .closed else .halfClosedRemote }
  else st

/-- The segments from the one that reaches beyond `offset`, or begins there, on. -/
def segmentsFrom (buffer : SortedMap Nat Bytes) (offset : Nat) : List (Nat × Bytes) :=
  let following := buffer.records.dropWhile (·.1 < offset)
  match (buffer.records.takeWhile (·.1 < offset)).getLast? with
  | some previous => if offset < previous.1 + previous.2.length then previous :: following else following
  | none => following

/-- The loop of `push_received` over the segments it meets. Holes are filled in front of the segment
in turn, so they are not met again. No cursor comes back when a segment holds other bytes. -/
def fillHoles (offset : Nat) (data : Bytes) :
    (segments : List (Nat × Bytes)) → (cursor : Nat) → SortedMap Nat Bytes → Option Nat × SortedMap Nat Bytes
  | [], cursor, buffer => (some cursor, buffer)
  | (existingBegin, existing) :: segments, cursor, buffer =>
    let stop := offset + data.length
    if existingBegin < stop then
      let existingEnd := existingBegin + existing.length
      let overlapBegin := max offset existingBegin
      let overlapEnd := min stop existingEnd
      if overlapBegin < overlapEnd ∧
          (data.drop (overlapBegin - offset)).take (overlapEnd - overlapBegin) ≠
            (existing.drop (overlapBegin - existingBegin)).take (overlapEnd - overlapBegin) then
        (none, buffer)
      else
        let holeEnd := min stop existingBegin
        let buffer := if cursor < existingBegin then
            buffer.tryEmplace cursor ((data.drop (cursor - offset)).take (holeEnd - cursor))
          else buffer
        fillHoles offset data segments (max cursor existingEnd) buffer
    else (some cursor, buffer)

/-- Unread bytes in order become a segment. -/
def migrate (st : QuicStream) : QuicStream :=
  if st.inOrder.size = 0 then st
  else { st with
    receiveBuffer := st.receiveBuffer.tryEmplace st.nextExpectedOffset st.inOrder.unread
    inOrder := st.inOrder.clear }

def markOpen (st : QuicStream) : QuicStream :=
  if st.state ≠ .halfClosedLocal then { st with state := .open } else st

/-- The general path of `push_received`, for a range that ends behind the consumed bytes. -/
def reassemble (st : QuicStream) (offset : Nat) (data : Bytes) : Except StreamError Unit × QuicStream :=
  let st := st.migrate
  let stop := offset + data.length
  let data := data.drop (st.nextExpectedOffset - offset)
  let offset := max offset st.nextExpectedOffset
  match fillHoles offset data (segmentsFrom st.receiveBuffer offset) offset st.receiveBuffer with
  | (none, buffer) => (.error .protocolViolation, { st with receiveBuffer := buffer })
  | (some cursor, buffer) =>
    let buffer := if cursor < stop then buffer.tryEmplace cursor (data.drop (cursor - offset)) else buffer
    (.ok (), (markOpen { st with
      receiveBuffer := buffer
      highestReceivedOffset := max st.highestReceivedOffset stop }).endIfConsumed)

/-- `push_received` behind its checks. -/
def acceptRange (st : QuicStream) (offset : Nat) (data : Bytes) (fin : Bool) : Except StreamError Unit × QuicStream :=
  let stop := offset + data.length
  if st.receiveAbandoned then
    let st := { st with highestReceivedOffset := max st.highestReceivedOffset stop }
    (.ok (), if fin then st.closeRemote else st)
  else if stop ≤ st.nextExpectedOffset then (.ok (), st.endIfConsumed)
  else if st.receiveBuffer.records = [] ∧ offset = st.nextExpectedOffset + st.inOrder.size then
    (.ok (), markOpen { st with
      inOrder := st.inOrder.append data
      highestReceivedOffset := max st.highestReceivedOffset stop })
  else st.reassemble offset data

def pushReceived (st : QuicStream) (offset : Nat) (data : Bytes) (fin : Bool) : Except StreamError Unit × QuicStream :=
  let stop := offset + data.length
  if 2 ^ 64 - 1 - data.length < offset then (.error .finalSizeError, st)
  else if fin ∧ stop < st.highestReceivedOffset then (.error .finalSizeError, st)
  else if st.finalSize.any (fun final => final < stop || fin && stop ≠ final) then (.error .finalSizeError, st)
  else if st.remoteEnded then
    -- A retransmission after the end.
    (if stop ≤ st.nextExpectedOffset then .ok () else .error .finalSizeError, st)
  else if st.maxData < offset ∨ st.maxData - offset < data.length then (.error .flowControlError, st)
  else if fin ∧ st.finalSize.any (· ≠ stop) then (.error .finalSizeError, st)
  else acceptRange (if fin then { st with finalSize := some stop } else st) offset data fin

def resetRemote (st : QuicStream) (finalSize : Nat) : Except StreamError Unit × QuicStream :=
  if st.finalSize.any (· ≠ finalSize) then (.error .finalSizeError, st)
  else if finalSize < st.highestReceivedOffset then (.error .finalSizeError, st)
  else if st.maxData < finalSize then (.error .flowControlError, st)
  else (.ok (), { st with
    finalSize := some finalSize
    highestReceivedOffset := finalSize
    nextExpectedOffset := finalSize
    inOrder := st.inOrder.clear
    receiveBuffer := .empty
    state := if st.state = .closed ∨ st.state = .halfClosedLocal then .closed else .halfClosedRemote })

def abandonReceive (st : QuicStream) : QuicStream :=
  let st := { st with receiveAbandoned := true, inOrder := st.inOrder.clear, receiveBuffer := .empty }
  if st.finalSize.isSome then st.closeRemote else st

/-- The first bytes of the segment at `offset` are taken out of the buffer, the rest of it gets a new key.
There is no result where the source terminates the program because the key is in use. -/
def takeFront (buffer : SortedMap Nat Bytes) (offset : Nat) (segment : Bytes) (count : Nat) : Option (SortedMap Nat Bytes) :=
  let rest := buffer.delete offset
  if count = segment.length then some rest
  else if (rest.get (offset + count)).isSome then none
  else some (rest.put (offset + count) (segment.drop count))

/-- The loop of `deliver_contiguous_data` over adjacent segments. Every round but the last takes a
segment out. -/
def deliverSegments : (rounds room : Nat) → QuicStream → Option (Bytes × QuicStream)
  | 0, _, st => some ([], st)
  | rounds + 1, room, st =>
    if room = 0 then some ([], st)
    else
      match st.receiveBuffer.get st.nextExpectedOffset with
      | none => some ([], st)
      | some segment => do
        let count := min room segment.length
        let buffer ← takeFront st.receiveBuffer st.nextExpectedOffset segment count
        let (bytes, st) ← deliverSegments rounds (room - count)
          { st with receiveBuffer := buffer, nextExpectedOffset := st.nextExpectedOffset + count }
        return (segment.take count ++ bytes, st)

def deliverContiguousData (st : QuicStream) (size : Nat) : Option (Bytes × QuicStream) :=
  if st.inOrder.size ≠ 0 then
    let count := min size st.inOrder.size
    some (st.inOrder.unread.take count, { st with
      inOrder := st.inOrder.consume count (Nat.min_le_right _ _)
      nextExpectedOffset := st.nextExpectedOffset + count })
  else deliverSegments (st.receiveBuffer.records.length + 1) size st

/-- `apply_receive_state` with a buffer of `size` bytes, and the bytes copied to it. -/
def applyReceiveState (st : QuicStream) (size : Nat) : Option (Except StreamError Bytes × QuicStream) :=
  if st.receiveAbandoned then some (.error .operationCanceled, st)
  else if st.state = .closed then some (.ok [], st)
  else if st.hasBufferedData = false then
    some (if st.state = .halfClosedRemote then .ok [] else .error .operationWouldBlock, st)
  else do
    let (copied, st) ← st.deliverContiguousData size
    let st := st.endIfConsumed
    return (if copied = [] ∧ st.remoteEnded = false then .error .operationWouldBlock else .ok copied, st)

end QuicStream

end Cnetmod.Quic
