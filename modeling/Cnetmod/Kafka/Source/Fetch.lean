import Mathlib.Logic.Function.Basic

/-!
# The batches of a Kafka fetch answer

The batch loop of `facade_consumer_backend::poll_once` for one partition. The batches are
what `decode_record_batch` reads from the answer, and the map of the first offsets is a
function to the queue of each producer.
-/
namespace Cnetmod.Kafka

variable {ν : Type}

structure ConsumedRecord (ν : Type) where
  offset : Int
  value : ν

/-- `abort` is the kind of a marker. It is in the record of the batch, which the consumer
does not look at. -/
structure RecordBatch (ν : Type) where
  baseOffset : Int
  lastOffset : Int
  producerId : Int
  transactional : Bool
  control : Bool
  abort : Bool := false
  records : List (ConsumedRecord ν)

structure AbortedTransaction where
  producerId : Int
  firstOffset : Int

inductive IsolationLevel where
  | readUncommitted | readCommitted

def IsolationLevel.queues (isolation : IsolationLevel) (aborted : List AbortedTransaction) (producerId : Int) : List Int :=
  match isolation with
  | .readUncommitted => []
  | .readCommitted => (aborted.filter (·.producerId = producerId)).map (·.firstOffset)

/-- The loop over the records of a batch: the position and what has been collected. -/
def takeRecords (limit : Nat) (position : Int) (out : List (ConsumedRecord ν)) :
    List (ConsumedRecord ν) → Int × List (ConsumedRecord ν)
  | [] => (position, out)
  | record :: records =>
    if record.offset < position then takeRecords limit position out records
    else if limit ≤ out.length + 1 then (record.offset + 1, out ++ [record])
    else takeRecords limit (record.offset + 1) (out ++ [record]) records

def takeBatches (limit : Nat) (position : Int) (queues : Int → List Int) (out : List (ConsumedRecord ν)) :
    List (RecordBatch ν) → Int × List (ConsumedRecord ν)
  | [] => (position, out)
  | batch :: batches =>
    if limit ≤ out.length then (position, out)
    else
      let queue := queues batch.producerId
      let begun := queue.head?.any (· ≤ batch.baseOffset)
      if batch.control then
        takeBatches limit (batch.lastOffset + 1)
          (if begun then Function.update queues batch.producerId queue.tail else queues) out batches
      else if batch.transactional && begun then takeBatches limit (batch.lastOffset + 1) queues out batches
      else
        let (position, out) := takeRecords limit position out batch.records
        takeBatches limit position queues out batches

/-- `poll_once` for an answer about one partition: the position it leaves and the records. -/
def pollOnce (isolation : IsolationLevel) (limit : Nat) (position : Int) (aborted : List AbortedTransaction)
    (answer : List (RecordBatch ν)) : Int × List (ConsumedRecord ν) :=
  takeBatches limit position (isolation.queues aborted) [] answer

end Cnetmod.Kafka
