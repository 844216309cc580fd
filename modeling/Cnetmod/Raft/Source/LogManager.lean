import Cnetmod.Raft.Source.Storage

/-!
# Log manager

`log_manager.cpp`. The manager holds nothing but the shared store, so its
methods are functions of the store; a method that writes returns the store it
leaves, also when a write threw half way.
-/
namespace Cnetmod.Raft

structure AppendResult where
  success : Bool := false
  matchIndex : Nat := 0
  conflictIndex : Nat := 0
  conflictTerm : Nat := 0
  error : RaftError := {}

namespace LogManager

/-- Index the entry after the last one, then `append_one`. -/
def appendNext (st : RaftStorage) (entry : LogEntry) : StoreResult LogEntry :=
  let entry := { entry with index := st.mem.lastLogIndex + 1 }
  match st.appendOne entry with
  | (.ok (), st) => (.ok entry, st)
  | (.error thrown, st) => (.error thrown, st)

def appendAsLeader (st : RaftStorage) (term : Nat) (command : String) : StoreResult LogEntry :=
  appendNext st { term := term, type := .command, command := command }

def appendNoop (st : RaftStorage) (term : Nat) : StoreResult LogEntry :=
  appendNext st { term := term, type := .noOp }

def appendConfiguration (st : RaftStorage) (term : Nat) (conf : ConfigurationState) : StoreResult LogEntry :=
  appendNext st { term := term, type := .configuration, configuration := conf }

/-- `log_manager::match`. -/
def matches_ (st : RaftStorage) (index term : Nat) : Bool := st.mem.termAt index == term

/-- The loop that walks back to the first entry of the conflicting term. -/
def conflictStart (mem : MemoryStore) (localTerm : Nat) : Nat → Nat
  | 0 => 0
  | index + 1 =>
    if index + 1 > mem.firstLogIndex ∧ mem.termAt index = localTerm then
      conflictStart mem localTerm index
    else index + 1

def conflictResult (st : RaftStorage) (prevIndex : Nat) : AppendResult :=
  let result : AppendResult :=
    { success := false
      matchIndex := if prevIndex > 0 then prevIndex - 1 else 0
      conflictIndex := st.mem.lastLogIndex + 1
      conflictTerm := 0
      error := { code := .logInconsistent, message := "previous log term mismatch" } }
  let localTerm := st.mem.termAt prevIndex
  if localTerm = 0 then result
  else
    { result with
      conflictTerm := localTerm
      conflictIndex := conflictStart st.mem localTerm prevIndex }

/-- What the entry loop of `append_from_leader` decides before it breaks or
ends: how far the log is confirmed, where to cut it, and what to append. -/
structure LeaderScan where
  matchIndex : Nat
  truncateAt : Option Nat
  toAppend : List LogEntry

def scanFromLeader (mem : MemoryStore) (snapshotIndex : Nat) : Nat → List LogEntry → LeaderScan
  | matchIndex, [] => ⟨matchIndex, none, []⟩
  | matchIndex, entry :: rest =>
    if entry.index ≤ snapshotIndex then
      scanFromLeader mem snapshotIndex (max matchIndex entry.index) rest
    else
      let localTerm := mem.termAt entry.index
      if localTerm ≠ 0 ∧ localTerm ≠ entry.term then
        ⟨matchIndex, some entry.index, entry :: rest⟩
      else if localTerm = 0 then ⟨matchIndex, none, entry :: rest⟩
      else scanFromLeader mem snapshotIndex (max matchIndex entry.index) rest

def truncateAt (st : RaftStorage) : Option Nat → StoreResult Unit
  | none => (.ok (), st)
  | some index => st.truncateSuffix index

/-- A follower's append. `std::erase_if` drops what the snapshot covers. -/
def appendFromLeader (st : RaftStorage) (prevIndex prevTerm : Nat) (entries : List LogEntry) : StoreResult AppendResult :=
  if !matches_ st prevIndex prevTerm then (.ok (conflictResult st prevIndex), st)
  else
    let snapshotIndex := st.mem.loadSnapshotMetadata.lastIncludedIndex
    let scan := scanFromLeader st.mem snapshotIndex prevIndex entries
    match truncateAt st scan.truncateAt with
    | (.error thrown, st) => (.error thrown, st)
    | (.ok (), st) =>
      let toAppend := scan.toAppend.filter fun e => !decide (e.index ≤ snapshotIndex)
      match toAppend.getLast? with
      | none => (.ok { success := true, matchIndex := scan.matchIndex }, st)
      | some back =>
        match st.append toAppend with
        | (.error thrown, st) => (.error thrown, st)
        | (.ok (), st) => (.ok { success := true, matchIndex := max scan.matchIndex back.index }, st)

def restoreSnapshot (st : RaftStorage) (metadata : SnapshotMetadata) : StoreResult AppendResult :=
  if !metadata.valid then
    (.ok { success := false
           error := { code := .configurationError, message := "snapshot metadata is empty" } }, st)
  else
    match st.resetToSnapshot metadata with
    | (.error thrown, st) => (.error thrown, st)
    | (.ok (), st) => (.ok { success := true, matchIndex := metadata.lastIncludedIndex }, st)

def compactPrefix (st : RaftStorage) (firstKept : Nat) : StoreResult Unit :=
  st.truncatePrefix firstKept

end LogManager

end Cnetmod.Raft
