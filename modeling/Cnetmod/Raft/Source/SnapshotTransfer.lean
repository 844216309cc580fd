import Cnetmod.Coding.Bits
import Cnetmod.Raft.Source.Cluster

/-!
# Snapshot transfer (`raft_tcp_transport.cpp`)

A snapshot travels in chunks, which the receiver collects in a file of its own
until the last one. Files are a store of byte strings by path: a write at an
offset appends or overwrites, and an operation that fails has no effect. Which
operations fail is an input of each call. Calls for one session come one after
the other.
-/
namespace Cnetmod.Raft

open Coding (Bytes)

def crc32Bit (crc : UInt32) : UInt32 := (crc >>> 1) ^^^ (0xedb88320 &&& (0 - (crc &&& 1)))

def crc32Byte (crc : UInt32) (byte : UInt8) : UInt32 :=
  (List.range 8).foldl (fun crc _ => crc32Bit crc) (crc ^^^ byte.toUInt32)

def crc32 (data : Bytes) (crc : UInt32) : UInt32 := data.foldl crc32Byte crc

def crc32Finish (crc : UInt32) : UInt32 := crc ^^^ 0xffffffff

def crc32Bytes (data : Bytes) : UInt32 := crc32Finish (crc32 data 0xffffffff)

/-- `install_snapshot_request` with the fields the transport reads. -/
structure SnapshotChunk extends InstallSnapshotRequest where
  snapshotId : String := ""
  offset : UInt64 := 0
  totalSize : UInt64 := 0
  chunkCrc32 : UInt32 := 0
  fileCrc32 : UInt32 := 0
  done : Bool := true
  data : Bytes := []
  deriving DecidableEq

/-- `install_snapshot_response` with the fields the transport reads. -/
structure SnapshotAnswer extends InstallSnapshotResponse where
  snapshotId : String := ""
  acceptedOffset : UInt64 := 0
  error : String := ""

def SnapshotChunk.size (m : SnapshotChunk) : UInt64 := UInt64.ofNat m.data.length

def SnapshotChunk.isChunked (m : SnapshotChunk) : Bool :=
  m.data ≠ [] ∨ m.snapshotId ≠ "" ∨ m.totalSize ≠ 0 ∨ m.offset ≠ 0 ∨ m.chunkCrc32 ≠ 0 ∨ m.fileCrc32 ≠ 0 ∨ m.done = false

structure TransportOptions where
  localId : NodeId := ""
  snapshotDirectory : String := ""

/-- `path::operator/`. -/
def joinPath (directory name : String) : String :=
  if name.startsWith "/" then name
  else if directory = "" ∨ directory.endsWith "/" then directory ++ name
  else directory ++ "/" ++ name

namespace TransportOptions

def defaultSnapshotId (opts : TransportOptions) (m : SnapshotChunk) : String :=
  (if m.leaderId = "" then opts.localId else m.leaderId) ++ "-" ++
    toString m.metadata.lastIncludedIndex ++ "-" ++ toString m.metadata.lastIncludedTerm

/-- The message under the id its session is kept by. -/
def named (opts : TransportOptions) (m : SnapshotChunk) : SnapshotChunk :=
  if m.snapshotId = "" then { m with snapshotId := opts.defaultSnapshotId m } else m

def snapshotPath (opts : TransportOptions) (source : NodeId) (m : SnapshotChunk) : String :=
  joinPath opts.snapshotDirectory
    (source ++ "-" ++ toString m.metadata.lastIncludedIndex ++ "-" ++
      toString m.metadata.lastIncludedTerm ++ "-" ++ m.snapshotId ++ ".snapshot")

end TransportOptions

def snapshotSessionKey (source : NodeId) (m : SnapshotChunk) : String := source ++ ":" ++ m.snapshotId

/-- `snapshot_receive_state`. -/
structure ReceiveState where
  expectedOffset : UInt64 := 0
  tempPath : String := ""
  finalPath : String := ""

structure Receiver where
  sessions : String → Option ReceiveState := fun _ => none
  files : String → Option Bytes := fun _ => none

/-- The file operations of one call that fail. -/
structure FileFaults where
  createDirectories : Bool := false
  openTruncated : Bool := false
  closeTruncated : Bool := false
  openFile : Bool := false
  write : Bool := false
  flush : Bool := false
  closeFile : Bool := false
  crc : Bool := false
  remove : Bool := false
  rename : Bool := false

inductive MaterializeStatus where
  | pending | complete | failed
  deriving DecidableEq

/-- The largest file. -/
def fileMaxSize : Nat := 2 ^ 63 - 1

def writeAt (content : Bytes) (offset : Nat) (data : Bytes) : Bytes :=
  if data = [] then content
  else
    (content ++ List.replicate (offset - content.length) 0).take offset ++ data ++ content.drop (offset + data.length)

namespace Receiver

def setSession (r : Receiver) (key : String) (state : Option ReceiveState) : Receiver :=
  { r with sessions := Function.update r.sessions key state }

def setFile (r : Receiver) (path : String) (content : Option Bytes) : Receiver :=
  { r with files := Function.update r.files path content }

def acceptedSnapshotOffset (r : Receiver) (source : NodeId) (m : SnapshotChunk) : UInt64 :=
  match r.sessions (snapshotSessionKey source m) with
  | none => 0
  | some state => state.expectedOffset

/-- After the last chunk: the checks, and the file under its final name. -/
def finishSnapshot (r : Receiver) (faults : FileFaults) (key : String) (state : ReceiveState)
    (m : SnapshotChunk) : Receiver × SnapshotChunk × MaterializeStatus :=
  if state.expectedOffset ≠ m.totalSize then (r, m, .failed)
  else if faults.crc ∨ (r.files state.tempPath).map crc32Bytes ≠ some m.fileCrc32 then (r, m, .failed)
  else
    let r' := if faults.remove then r else r.setFile state.finalPath none
    if faults.rename then (r'.setSession key none, m, .failed)
    else
      let renamed := (r'.setFile state.finalPath (r.files state.tempPath)).setFile state.tempPath none
      (renamed.setSession key none, { m with uri := state.finalPath, data := [] }, .complete)

/-- A chunk of a session that has begun. -/
def receiveChunk (r : Receiver) (faults : FileFaults) (key : String) (state : ReceiveState)
    (m : SnapshotChunk) : Receiver × SnapshotChunk × MaterializeStatus :=
  if m.offset < state.expectedOffset then
    if m.offset + m.size ≤ state.expectedOffset then
      (r, m, if m.done ∧ state.expectedOffset = m.totalSize then .complete else .pending)
    else (r, m, .failed)
  else if m.offset ≠ state.expectedOffset then (r, m, .failed)
  else if faults.openFile then (r, m, .failed)
  else
    let content := (r.files state.tempPath).getD []
    if faults.write ∨ state.expectedOffset.toNat + m.data.length > fileMaxSize then
      (r.setFile state.tempPath (some content), m, .failed)
    else
      let r := r.setFile state.tempPath (some (writeAt content state.expectedOffset.toNat m.data))
      let state := { state with expectedOffset := state.expectedOffset + m.size }
      let r := r.setSession key (some state)
      if ¬ m.done then (r, m, if faults.closeFile then .failed else .pending)
      else if faults.flush ∨ faults.closeFile then (r, m, .failed)
      else r.finishSnapshot faults key state m

def materializeSnapshot (r : Receiver) (opts : TransportOptions) (faults : FileFaults) (source : NodeId)
    (m : SnapshotChunk) : Receiver × SnapshotChunk × MaterializeStatus :=
  if ¬ m.isChunked then (r, m, .complete)
  else
    let m := opts.named m
    if crc32Bytes m.data ≠ m.chunkCrc32 then (r, m, .failed)
    else if faults.createDirectories then (r, m, .failed)
    else
      let finalPath := opts.snapshotPath source m
      let key := snapshotSessionKey source m
      let state := (r.sessions key).getD {}
      let r := r.setSession key (some state)
      if m.offset = 0 ∧ state.expectedOffset = 0 then
        let state := { state with tempPath := finalPath ++ ".part", finalPath }
        if faults.openTruncated then (r.setSession key none, m, .failed)
        else
          let r := r.setFile state.tempPath (some [])
          if faults.closeTruncated then (r.setSession key none, m, .failed)
          else (r.setSession key (some state)).receiveChunk faults key state m
      else if state.expectedOffset = 0 then (r.setSession key none, m, .failed)
      else r.receiveChunk faults key state m

/-- `cleanup_snapshot_sessions`, for a session that has been idle too long. -/
def cleanupSession (r : Receiver) (key : String) : Receiver :=
  match r.sessions key with
  | none => r
  | some state =>
    let r := if state.tempPath = "" then r else r.setFile state.tempPath none
    r.setSession key none

end Receiver

namespace RaftNode

/-- What the follower does with an `install_snapshot` message. -/
def dispatchChunk (n : RaftNode) (r : Receiver) (opts : TransportOptions) (faults : FileFaults)
    (source : NodeId) (m : SnapshotChunk) :
    RaftNode × Receiver × MaterializeStatus × SnapshotAnswer :=
  match r.materializeSnapshot opts faults source m with
  | (r, m, .complete) =>
    let (n, resp) := n.handleInstallSnapshot m.toInstallSnapshotRequest
    (n, r, .complete, { resp with snapshotId := m.snapshotId, acceptedOffset := m.totalSize })
  | (r, m, status) =>
    (n, r, status,
      { term := n.state.currentTerm
        success := status = .pending
        snapshotId := m.snapshotId
        acceptedOffset := r.acceptedSnapshotOffset source m
        error := if status = .failed then "snapshot chunk rejected" else "" })

/-- The leader goes on sending from the offset of a refused chunk. -/
def resumesSend (answer : SnapshotAnswer) : Bool :=
  ¬ answer.success ∧ answer.snapshotId ≠ "" ∧ answer.acceptedOffset ≠ 0

/-- What the leader does with an `install_snapshot_response` message; resuming a
transfer only sends chunks again. -/
def dispatchAnswer (n : RaftNode) (source : NodeId) (answer : SnapshotAnswer) : RaftNode :=
  if resumesSend answer then n
  else (n.handleInstallSnapshotResponse source answer.toInstallSnapshotResponse).1

end RaftNode

end Cnetmod.Raft
