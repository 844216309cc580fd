import Cnetmod.Raft.Source.LeveldbStore

/-!
# Calls on a store

The methods of `raft_storage` as calls, for both stores, and the calls that
`log_manager` and `raft_node` make of them. Indexes are 64-bit numbers, so the
one after the largest is 0.
-/
namespace Cnetmod.Raft

/-- The methods of `raft_storage` that write. -/
inductive StorageCall where
  | saveHardState (state : HardState)
  | saveSnapshotMetadata (metadata : SnapshotMetadata)
  | append (entries : List LogEntry)
  | appendOne (entry : LogEntry)
  | truncatePrefix (firstKept : Nat)
  | truncateSuffix (firstRemoved : Nat)
  | resetToSnapshot (metadata : SnapshotMetadata)
  deriving DecidableEq

/-- The answers of the methods that read. -/
@[ext] structure StorageQueries where
  loadHardState : Except Thrown HardState
  loadSnapshotMetadata : Except Thrown SnapshotMetadata
  firstLogIndex : Except Thrown Nat
  lastLogIndex : Except Thrown Nat
  termAt : UInt64 → Except Thrown Nat
  entryAt : UInt64 → Except Thrown (Option LogEntry)
  entries : UInt64 → Nat → Except Thrown (List LogEntry)

namespace MemoryStore

def queries (st : MemoryStore) : StorageQueries where
  loadHardState := .ok st.loadHardState
  loadSnapshotMetadata := .ok st.loadSnapshotMetadata
  firstLogIndex := .ok (st.firstLogIndex % 2 ^ 64)
  lastLogIndex := .ok st.lastLogIndex
  termAt index := .ok (st.termAt index.toNat)
  entryAt index := .ok (st.entryAt index.toNat)
  entries first maxEntries := .ok (st.entriesFrom first.toNat maxEntries)

def perform (st : MemoryStore) : StorageCall → MemoryStore
  | .saveHardState state => st.saveHardState state
  | .saveSnapshotMetadata metadata => st.saveSnapshotMetadata metadata
  | .append entries => st.append entries
  | .appendOne entry => st.appendOne entry
  | .truncatePrefix firstKept => st.truncatePrefix firstKept
  | .truncateSuffix firstRemoved => st.truncateSuffix firstRemoved
  | .resetToSnapshot metadata => st.resetToSnapshot metadata

end MemoryStore

namespace LeveldbStore

def queries (st : LeveldbStore) : StorageQueries where
  loadHardState := st.loadHardState
  loadSnapshotMetadata := st.loadSnapshotMetadata
  firstLogIndex := st.firstLogIndex
  lastLogIndex := st.lastLogIndex
  termAt index := st.termAt index.toNat
  entryAt index := st.entryAt index.toNat
  entries first maxEntries := st.entriesFrom first.toNat maxEntries

def perform (st : LeveldbStore) : StorageCall → Except Thrown LeveldbStore
  | .saveHardState state => .ok (st.saveHardState state)
  | .saveSnapshotMetadata metadata => .ok (st.saveSnapshotMetadata metadata)
  | .append entries => .ok (st.append entries)
  | .appendOne entry => .ok (st.appendOne entry)
  | .truncatePrefix firstKept => st.truncatePrefix firstKept
  | .truncateSuffix firstRemoved => .ok (st.truncateSuffix firstRemoved)
  | .resetToSnapshot metadata => st.resetToSnapshot metadata

end LeveldbStore

/-- What a node does with its log: the methods of `log_manager`, the two writes of
`create_snapshot`, and `persist`. -/
inductive LogCall where
  | appendAsLeader (term : Nat) (command : String)
  | appendNoop (term : Nat)
  | appendConfiguration (term : Nat) (conf : ConfigurationState)
  | appendFromLeader (prevIndex prevTerm : Nat) (entries : List LogEntry)
  | restoreSnapshot (metadata : SnapshotMetadata)
  | createSnapshot (metadata : SnapshotMetadata)
  | persist (state : HardState)
  deriving DecidableEq

namespace LogCall

def appendNext (q : StorageQueries) (entry : LogEntry) : Except Thrown (List StorageCall) := do
  let last ← q.lastLogIndex
  return [.appendOne { entry with index := (last + 1) % 2 ^ 64 }]

/-- The entry loop of `append_from_leader`: where to cut the log and what to append. -/
def scan (q : StorageQueries) (snapshotIndex : Nat) : List LogEntry → Except Thrown (Option Nat × List LogEntry)
  | [] => .ok (none, [])
  | entry :: rest =>
    if entry.index ≤ snapshotIndex then scan q snapshotIndex rest
    else do
      let localTerm ← q.termAt (UInt64.ofNat entry.index)
      if localTerm ≠ 0 ∧ localTerm ≠ entry.term then return (some entry.index, entry :: rest)
      else if localTerm = 0 then return (none, entry :: rest)
      else scan q snapshotIndex rest

/-- The calls of `append_from_leader`; a conflict is only read from the store. -/
def appendEntries (q : StorageQueries) (prevIndex prevTerm : Nat) (entries : List LogEntry) :
    Except Thrown (List StorageCall) := do
  if (← q.termAt (UInt64.ofNat prevIndex)) ≠ prevTerm then return []
  else
    let snapshot ← q.loadSnapshotMetadata
    let (cut, rest) ← scan q snapshot.lastIncludedIndex entries
    let toAppend := rest.filter fun e => !decide (e.index ≤ snapshot.lastIncludedIndex)
    return cut.toList.map .truncateSuffix ++ if toAppend = [] then [] else [.append toAppend]

/-- The writing calls, by what the store answers. -/
def issues (q : StorageQueries) : LogCall → Except Thrown (List StorageCall)
  | .appendAsLeader term command => appendNext q { term, type := .command, command }
  | .appendNoop term => appendNext q { term, type := .noOp }
  | .appendConfiguration term configuration => appendNext q { term, type := .configuration, configuration }
  | .appendFromLeader prevIndex prevTerm entries => appendEntries q prevIndex prevTerm entries
  | .restoreSnapshot metadata => .ok (if metadata.valid then [.resetToSnapshot metadata] else [])
  | .createSnapshot metadata =>
    .ok [.saveSnapshotMetadata metadata, .truncatePrefix ((metadata.lastIncludedIndex + 1) % 2 ^ 64)]
  | .persist state => .ok [.saveHardState state]

end LogCall

/-- The store after a log call. -/
def MemoryStore.serve (st : MemoryStore) (call : LogCall) : Except Thrown MemoryStore := do
  let calls ← call.issues st.queries
  return calls.foldl MemoryStore.perform st

def LeveldbStore.serve (st : LeveldbStore) (call : LogCall) : Except Thrown LeveldbStore := do
  let calls ← call.issues st.queries
  calls.foldlM LeveldbStore.perform st

/-- The store in the middle of a log call, after `cut` of its writing calls. -/
def MemoryStore.serveFirst (st : MemoryStore) (cut : Nat) (call : LogCall) : Except Thrown MemoryStore := do
  let calls ← call.issues st.queries
  return (calls.take cut).foldl MemoryStore.perform st

def LeveldbStore.serveFirst (st : LeveldbStore) (cut : Nat) (call : LogCall) : Except Thrown LeveldbStore := do
  let calls ← call.issues st.queries
  (calls.take cut).foldlM LeveldbStore.perform st

end Cnetmod.Raft
