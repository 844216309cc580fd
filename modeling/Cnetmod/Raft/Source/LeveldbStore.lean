import Cnetmod.Coding.FixedWidth
import Cnetmod.Raft.Source.Storage

/-!
# Log storage in LevelDB

`raft_leveldb_store.cpp`. LevelDB is an ordered map of byte strings whose write
batches take effect as a whole and whose operations succeed. Strings are their
UTF-8 bytes. A record that does not parse makes the call throw.
-/
namespace Cnetmod.Raft

open Coding (Bytes)

def hardStateKey : Bytes := "meta:hard_state"
def snapshotKey : Bytes := "meta:snapshot"
def logPrefix : Bytes := "log:"

/-- `std::format("log:{:020}", index)`: twenty digits hold every 64-bit number. -/
def logKey (index : Nat) : Bytes := logPrefix ++ Coding.decimalDigits 20 index

def isLogKey (key : Bytes) : Bool := logPrefix.isPrefixOf key

def parseLogIndex (key : Bytes) : Except Thrown Nat :=
  if isLogKey key then
    match Coding.fromChars 10 (key.drop 4) with
    | some index => .ok index
    | none => .error (.exception "stoull")
  else .ok 0

def stringBytes (s : String) : Bytes := s.toByteArray.data.toList

def bytesString (bytes : Bytes) : String := (String.fromUTF8? ⟨bytes.toArray⟩).getD ""

/-- A function that reads from the front of what is left of a record. -/
abbrev RecordReader := StateT Bytes (Except Thrown)

def putU64 (value : Nat) : Bytes := Coding.littleEndian 8 value

def getU64 : RecordReader Nat := fun rest =>
  if rest.length < 8 then .error (.exception "corrupt raft leveldb record")
  else .ok (Coding.littleEndianValue (rest.take 8), rest.drop 8)

def putString (value : String) : Bytes := putU64 (stringBytes value).length ++ stringBytes value

/-- `size` bytes of a string. -/
def getText (size : Nat) : RecordReader String := fun rest =>
  if rest.length < size then .error (.exception "corrupt raft leveldb string")
  else .ok (bytesString (rest.take size), rest.drop size)

def getString : RecordReader String := do
  let size ← getU64
  getText size

def putStrings (values : List NodeId) : Bytes := putU64 values.length ++ values.flatMap putString

def getEach : Nat → RecordReader (List NodeId)
  | 0 => pure []
  | size + 1 => do
    let value ← getString
    let rest ← getEach size
    return value :: rest

def getStrings : RecordReader (List NodeId) := do
  let size ← getU64
  getEach size

def putConfig (conf : ConfigurationState) : Bytes :=
  putStrings conf.voters ++ putStrings conf.oldVoters ++ putStrings conf.learners

/-- Records of earlier versions have no learners. -/
def getConfig : RecordReader ConfigurationState := do
  let voters ← getStrings
  let oldVoters ← getStrings
  let rest ← get
  let learners ← if rest = [] then pure [] else getStrings
  return { voters := voters, oldVoters := oldVoters, learners := learners }

def serializeState (s : HardState) : Bytes :=
  putU64 s.currentTerm ++ putString s.votedFor ++ putU64 s.commitIndex ++ putU64 s.lastApplied

def getState : RecordReader HardState := do
  let currentTerm ← getU64
  let votedFor ← getString
  let commitIndex ← getU64
  let lastApplied ← getU64
  return { currentTerm, votedFor, commitIndex, lastApplied }

def deserializeState (data : Bytes) : Except Thrown HardState :=
  if data = [] then .ok {} else getState.run' data

def serializeSnapshot (s : SnapshotMetadata) : Bytes :=
  putU64 s.lastIncludedIndex ++ putU64 s.lastIncludedTerm ++ putString s.uri ++ putConfig s.configuration

def getSnapshot : RecordReader SnapshotMetadata := do
  let lastIncludedIndex ← getU64
  let lastIncludedTerm ← getU64
  let uri ← getString
  let configuration ← getConfig
  return { lastIncludedIndex, lastIncludedTerm, uri, configuration }

def deserializeSnapshot (data : Bytes) : Except Thrown SnapshotMetadata :=
  if data = [] then .ok {} else getSnapshot.run' data

/-- The value of the enumerator. -/
def EntryType.code : EntryType → Nat
  | .noOp => 0
  | .command => 1
  | .configuration => 2

/-- The cast back; no other value is written. -/
def EntryType.ofCode : Nat → EntryType
  | 0 => .noOp
  | 1 => .command
  | _ => .configuration

def serializeEntry (e : LogEntry) : Bytes :=
  putU64 e.term ++ putU64 e.type.code ++ putString e.command ++ putConfig e.configuration

def getEntry (index : Nat) : RecordReader LogEntry := do
  let term ← getU64
  let type ← getU64
  let command ← getString
  let configuration ← getConfig
  return { index, term, type := EntryType.ofCode type, command, configuration }

def deserializeEntry (index : Nat) (data : Bytes) : Except Thrown LogEntry :=
  (getEntry index).run' data

structure LeveldbStore where
  db : Coding.SortedMap Bytes Bytes := .empty

namespace LeveldbStore

def loadHardState (st : LeveldbStore) : Except Thrown HardState :=
  match st.db.get hardStateKey with
  | none => .ok {}
  | some data => deserializeState data

def saveHardState (st : LeveldbStore) (s : HardState) : LeveldbStore :=
  { db := st.db.put hardStateKey (serializeState s) }

def loadSnapshotMetadata (st : LeveldbStore) : Except Thrown SnapshotMetadata :=
  match st.db.get snapshotKey with
  | none => .ok {}
  | some data => deserializeSnapshot data

def saveSnapshotMetadata (st : LeveldbStore) (m : SnapshotMetadata) : LeveldbStore :=
  { db := st.db.put snapshotKey (serializeSnapshot m) }

/-- The records of an iteration that starts at a key and ends with the log. -/
def logFrom (st : LeveldbStore) (key : Bytes) : List (Bytes × Bytes) :=
  (st.db.seek key).takeWhile fun record => isLogKey record.1

def firstLogIndex (st : LeveldbStore) : Except Thrown Nat :=
  match (st.logFrom logPrefix).head? with
  | none => do return ((← st.loadSnapshotMetadata).lastIncludedIndex + 1) % 2 ^ 64
  | some record => parseLogIndex record.1

def lastLogIndex (st : LeveldbStore) : Except Thrown Nat := do
  let snapshot ← st.loadSnapshotMetadata
  (st.logFrom logPrefix).foldlM (fun _ record => parseLogIndex record.1) snapshot.lastIncludedIndex

def entryAt (st : LeveldbStore) (index : Nat) : Except Thrown (Option LogEntry) :=
  match st.db.get (logKey index) with
  | none => .ok none
  | some data => do return some (← deserializeEntry index data)

def termAt (st : LeveldbStore) (index : Nat) : Except Thrown Nat :=
  if index = 0 then .ok 0
  else do
    let snapshot ← st.loadSnapshotMetadata
    if index = snapshot.lastIncludedIndex then return snapshot.lastIncludedTerm
    else
      match ← st.entryAt index with
      | some entry => return entry.term
      | none => return 0

def entriesFrom (st : LeveldbStore) (first : Nat) (maxEntries : Nat) : Except Thrown (List LogEntry) :=
  ((st.logFrom (logKey first)).take maxEntries).mapM fun record => do
    deserializeEntry (← parseLogIndex record.1) record.2

def deletes (records : List (Bytes × Bytes)) : List (Coding.BatchWrite Bytes Bytes) :=
  records.map fun record => .delete record.1

def deleteSuffix (st : LeveldbStore) (firstRemoved : Nat) : List (Coding.BatchWrite Bytes Bytes) :=
  deletes (st.logFrom (logKey firstRemoved))

def putEntry (e : LogEntry) : Coding.BatchWrite Bytes Bytes := .put (logKey e.index) (serializeEntry e)

def appendOne (st : LeveldbStore) (entry : LogEntry) : LeveldbStore :=
  if entry.index = 0 then st
  else { db := st.db.write (st.deleteSuffix entry.index ++ [putEntry entry]) }

def append (st : LeveldbStore) (es : List LogEntry) : LeveldbStore :=
  match es with
  | [entry] => st.appendOne entry
  | _ =>
    match MemoryStore.sortByIndex (es.filter (·.index ≠ 0)) with
    | [] => st
    | front :: rest => { db := st.db.write (st.deleteSuffix front.index ++ (front :: rest).map putEntry) }

/-- The loop of `truncate_prefix`, which stops at the first index it keeps. -/
def recordsBelow (firstKept : Nat) : List (Bytes × Bytes) → Except Thrown (List (Bytes × Bytes))
  | [] => .ok []
  | record :: rest => do
    let index ← parseLogIndex record.1
    if index ≥ firstKept then return [] else return record :: (← recordsBelow firstKept rest)

def truncatePrefix (st : LeveldbStore) (firstKept : Nat) : Except Thrown LeveldbStore := do
  let records ← recordsBelow firstKept (st.logFrom logPrefix)
  return { db := st.db.write (deletes records) }

def truncateSuffix (st : LeveldbStore) (firstRemoved : Nat) : LeveldbStore :=
  { db := st.db.write (st.deleteSuffix firstRemoved) }

def resetToSnapshot (st : LeveldbStore) (m : SnapshotMetadata) : Except Thrown LeveldbStore := do
  let state ← st.loadHardState
  let state := { state with
    commitIndex := max state.commitIndex m.lastIncludedIndex
    lastApplied := max state.lastApplied m.lastIncludedIndex }
  return { db := st.db.write (deletes (st.logFrom logPrefix) ++
    [.put snapshotKey (serializeSnapshot m), .put hardStateKey (serializeState state)]) }

end LeveldbStore

end Cnetmod.Raft
