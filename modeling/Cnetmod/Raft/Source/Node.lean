import Cnetmod.Raft.Source.LogManager
import Cnetmod.Raft.Source.Progress
import Cnetmod.Raft.Source.Fsm

/-!
# Raft node: state and private methods

The members of `raft_node` and the private methods of `node.cpp`. `clock` is
what `steady_clock::now()` returns during the current call. `store_` and `log_`
share one store, so a node has one `store`.

`history` is not part of the program: it records what the node has done, for
statements about whole runs. No function reads it, and a restarted node
continues the record of its predecessor.
-/
namespace Cnetmod.Raft

structure PendingRead where
  id : Nat := 0
  term : Nat := 0
  index : Nat := 0
  context : String := ""
  acked : Finset NodeId := ∅
  createdAt : Int := 0
  ready : Bool := false
  deriving DecidableEq

/-- A leader's assignment to `commit_index`, with what it saw at that moment. -/
structure CommitRecord where
  term : Nat
  index : Nat
  conf : Configuration
  progress : ProgressTracker
  entries : List LogEntry

structure NodeHistory where
  /-- Entries handed to `fsm_caller::apply_entry`. -/
  passed : List LogEntry := []
  /-- Stored entries covered by a successful append response. -/
  acked : List LogEntry := []
  commits : List CommitRecord := []
  /-- Terms the node stood for election in, and under which configuration. -/
  stood : List (Nat × Configuration) := []
  /-- `conf_` as last set by the constructor, an applied entry or a snapshot. -/
  committedConf : Configuration

structure RaftNode where
  cfg : RaftConfig
  store : RaftStorage
  state : HardState := {}
  role : NodeRole := .follower
  leaderId : NodeId := ""
  conf : Configuration
  votesGranted : Finset NodeId := ∅
  votesRejected : Finset NodeId := ∅
  progress : ProgressTracker := {}
  fsm : FsmCaller := {}
  lastLeaderContact : Int := 0
  lastQuorumContact : Int := 0
  pendingReads : List PendingRead := []
  stopped : Bool := false
  fatalError : RaftError := {}
  pendingConfigurationIndex : Option Nat := none
  pendingLeaderTransfer : Option NodeId := none
  lastAutoSnapshot : Int := 0
  clock : Int := 0
  history : NodeHistory

namespace RaftNode

def id (n : RaftNode) : NodeId := n.cfg.id
def mem (n : RaftNode) : MemoryStore := n.store.mem
def lastLogIndex (n : RaftNode) : Nat := n.mem.lastLogIndex

/-- A node built over `store`; the history of an earlier instance is carried on
by `restart`. -/
def create (cfg : RaftConfig) (store : RaftStorage) (machine : Option StateMachine) (clock : Int) : RaftNode :=
  let initial := Configuration.ofState cfg.initialConfiguration
  let state := store.mem.loadHardState
  let snapshot := store.mem.loadSnapshotMetadata
  let conf := if snapshot.valid && !snapshot.configuration.voters.isEmpty then
      Configuration.ofState snapshot.configuration else initial
  let state := if snapshot.valid then
      { state with
        commitIndex := max state.commitIndex snapshot.lastIncludedIndex
        lastApplied := max state.lastApplied snapshot.lastIncludedIndex } else state
  { cfg := cfg
    store := store
    state := state
    conf := conf
    fsm := { machine := machine, lastApplied := state.lastApplied }
    lastLeaderContact := clock
    clock := clock
    history := { committedConf := conf } }

def stop (n : RaftNode) (error : RaftError) : RaftNode :=
  if n.stopped then n
  else
    { n with
      fsm := if n.role = .leader then n.fsm.onLeaderStop n.state.currentTerm else n.fsm
      stopped := true
      fatalError := if error.code = .ok then { error with code := .stopped } else error
      role := .follower
      pendingReads := []
      votesGranted := ∅
      votesRejected := ∅
      pendingLeaderTransfer := none }

/-- A throwing save only stops the node; the caller is not told. -/
def persist (n : RaftNode) : RaftNode :=
  if n.stopped then n
  else
    match n.store.saveHardState n.state with
    | (.ok (), store) => { n with store := store }
    | (.error thrown, store) =>
      { n with store := store }.stop (thrown.toError .storageError "hard state storage failure")

def resetElectionDeadline (n : RaftNode) : RaftNode := { n with lastLeaderContact := n.clock }

def recentlyActive (n : RaftNode) (id : NodeId) : Bool :=
  if id = n.id then true
  else match n.progress.get id with
    | some p => p.recentActive
    | none => false

def refreshLeaderQuorum (n : RaftNode) : RaftNode :=
  if n.role ≠ .leader then n
  else if configurationHasQuorum n.conf n.recentlyActive then
    { n with lastQuorumContact := n.clock }
  else n

def stepDown (n : RaftNode) (newTerm : Nat) : RaftNode :=
  if n.stopped then n
  else
    let n : RaftNode :=
      { n with
        fsm := if n.role = .leader then n.fsm.onLeaderStop n.state.currentTerm else n.fsm
        role := .follower
        state := if newTerm ≠ n.state.currentTerm then
            { n.state with currentTerm := newTerm, votedFor := "" } else n.state
        votesGranted := ∅
        votesRejected := ∅
        pendingReads := []
        pendingLeaderTransfer := none }
    n.resetElectionDeadline.persist

/-- `state_.commit_index = index` on one of the leader's paths. -/
def setCommitAsLeader (n : RaftNode) (index : Nat) : RaftNode :=
  { n with
    state.commitIndex := index
    history.commits := n.history.commits ++
      [{ term := n.state.currentTerm, index := index, conf := n.conf
         progress := n.progress, entries := n.mem.entries }] }

def setSelfProgress (n : RaftNode) (matched : Nat) : RaftNode :=
  { n with
    progress := n.progress.update n.id fun p => { p with matchIndex := matched, nextIndex := matched + 1 } }

/-- `conf_` becomes the applied entry's, which is no longer pending. -/
def takeConfiguration (n : RaftNode) (entry : LogEntry) : RaftNode :=
  { n with
    conf := Configuration.ofState entry.configuration
    history.committedConf := Configuration.ofState entry.configuration
    pendingConfigurationIndex :=
      n.pendingConfigurationIndex.bind fun index => if index ≤ entry.index then none else some index }

/-- The configuration branch of `apply_one`. A leader that is still a voter of a
joint configuration appends the entry that leaves it. -/
def adoptConfiguration (n : RaftNode) (entry : LogEntry) : RaftNode :=
  let n := n.takeConfiguration entry
  if n.role = .leader ∧ !n.conf.contains n.id then n.stepDown n.state.currentTerm
  else if n.role = .leader ∧ n.conf.joint then
    match n.conf.leaveJoint with
    | .error _ => n
    | .ok next =>
      match LogManager.appendConfiguration n.store n.state.currentTerm next.state with
      | (.ok leave, store) =>
        { n with store := store, pendingConfigurationIndex := some leave.index }.setSelfProgress
          leave.index
      | (.error thrown, store) =>
        { n with store := store }.stop
          (thrown.toError .storageError "auto leave-joint append failure")
  else n

/-- `apply_one`; the flag tells the caller to go on. -/
def applyOne (n : RaftNode) (entry : LogEntry) : RaftNode × Bool :=
  if entry.index ≠ n.state.lastApplied + 1 then (n, false)
  else
    let n := { n with history.passed := n.history.passed ++ [entry] }
    match n.fsm.applyEntry entry with
    | (.error error, fsm) => ({ n with fsm := fsm }.stop error, false)
    | (.ok applied, fsm) =>
      let n := { n with fsm := fsm, state.lastApplied := applied }
      let n := if entry.type = .configuration then n.adoptConfiguration entry else n
      let n := n.persist
      (n, !n.stopped)

/-- The `for` loop over one batch of committed entries. -/
def applyBatch (n : RaftNode) : List LogEntry → RaftNode × Bool
  | [] => (n, true)
  | entry :: rest =>
    match n.applyOne entry with
    | (n, false) => (n, false)
    | (n, true) => applyBatch n rest

/-- The `while` loop of `apply_committed`. Every round that is not the last
applies at least one entry, so the committed gap bounds the rounds. -/
def applyLoop : Nat → RaftNode → RaftNode
  | 0, n => n
  | rounds + 1, n =>
    if n.state.lastApplied < n.state.commitIndex then
      let first := n.state.lastApplied + 1
      let committedGap := n.state.commitIndex - n.state.lastApplied
      if committedGap = 1 then
        match n.mem.entryAt first with
        | none => n
        | some entry =>
          match n.applyOne entry with
          | (n, false) => n
          | (n, true) => applyLoop rounds n
      else
        let entries := n.mem.entriesFrom first committedGap
        if entries.isEmpty ∨ entries.head?.map (·.index) ≠ some first then n
        else
          match n.applyBatch entries with
          | (n, false) => n
          | (n, true) => applyLoop rounds n
    else n

def applyCommitted (n : RaftNode) : RaftNode :=
  if n.stopped then n
  else applyLoop (n.state.commitIndex - n.state.lastApplied) n

/-- The tail shared by the four places that move a leader's commit index. -/
def commitTo (n : RaftNode) (index : Nat) : RaftNode :=
  (n.setCommitAsLeader index).persist.applyCommitted

/-- The assignments of `become_leader` up to its no-op. -/
def takeLeadership (n : RaftNode) : RaftNode :=
  { n with
    role := .leader
    leaderId := n.id
    votesGranted := ∅
    votesRejected := ∅
    progress := (ProgressTracker.reset n.conf.allMembers (n.lastLogIndex + 1)
      n.cfg.options.maxInflightAppend).update n.id fun p => { p with matchIndex := n.lastLogIndex } }

/-- What follows a stored no-op: own progress, the callback and the quorum clock. -/
def announceLeadership (n : RaftNode) (noopIndex : Nat) : RaftNode :=
  let n := n.setSelfProgress noopIndex
  { n with fsm := n.fsm.onLeaderStart n.state.currentTerm }.refreshLeaderQuorum

def becomeLeader (n : RaftNode) : RaftNode :=
  if n.stopped then n
  else
    let n := n.takeLeadership
    match LogManager.appendNoop n.store n.state.currentTerm with
    | (.error thrown, store) =>
      { n with store := store }.stop (thrown.toError .storageError "leader noop append failure")
    | (.ok noop, store) =>
      let n := { n with store := store }.announceLeadership noop.index
      if n.conf.quorumSize = 1 then n.commitTo noop.index else n

/-- The leader counts itself, and every peer by its recorded match index. -/
def matched (n : RaftNode) (last : Nat) (id : NodeId) : Bool :=
  if id = n.id then true
  else match n.progress.get id with
    | some p => p.matchIndex ≥ last
    | none => false

/-- The downward scan of `advance_commit_index` from the last log index. -/
def commitCandidate (n : RaftNode) : Nat → Option Nat
  | 0 => none
  | last + 1 =>
    if last + 1 > n.state.commitIndex then
      if configurationHasQuorum n.conf (n.matched (last + 1)) ∧
          n.mem.termAt (last + 1) = n.state.currentTerm then some (last + 1)
      else n.commitCandidate last
    else none

def advanceCommitIndex (n : RaftNode) : RaftNode :=
  if n.stopped then n
  else match n.commitCandidate n.lastLogIndex with
    | some index => n.commitTo index
    | none => n

def acknowledgeRead (n : RaftNode) (peer : NodeId) (id : Nat) : RaftNode :=
  { n with
    pendingReads := n.pendingReads.map fun read =>
      if read.id = id ∧ read.term = n.state.currentTerm then
        let acked := insert peer (insert n.id read.acked)
        { read with acked := acked, ready := read.ready || n.conf.hasQuorum acked }
      else read }

def makeTimeoutNow (n : RaftNode) (target : NodeId) : Option TimeoutNowRequest :=
  if n.role ≠ .leader ∨ !n.conf.contains target then none
  else match n.progress.get target with
    | none => none
    | some p =>
      if p.matchIndex < n.lastLogIndex then none
      else some { term := n.state.currentTerm, leaderId := n.id }

def notLeader (message : String) : RaftError := { code := .notLeader, message := message }

/-- From now on the leader counts under `next`, with nobody credited yet. -/
def countUnder (n : RaftNode) (next : Configuration) (index : Nat) : RaftNode :=
  let n : RaftNode :=
    { n with
      pendingConfigurationIndex := some index
      conf := next
      progress := ProgressTracker.reset next.allMembers (n.lastLogIndex + 1) n.cfg.options.maxInflightAppend }
  n.setSelfProgress index

/-- `raft_node::append_configuration`. -/
def appendConfiguration (n : RaftNode) (next : Configuration) : RaftNode × Except RaftError LogEntry :=
  if n.stopped then (n, .error n.fatalError)
  else if n.role ≠ .leader then
    (n, .error (notLeader "configuration change requires leader role"))
  else
    match LogManager.appendConfiguration n.store n.state.currentTerm next.state with
    | (.error thrown, store) =>
      let n := { n with store := store }.stop
        (thrown.toError .storageError "configuration append storage failure")
      (n, .error n.fatalError)
    | (.ok entry, store) =>
      let n := { n with store := store }.countUnder next entry.index
      (if n.conf.quorumSize = 1 then n.commitTo entry.index else n, .ok entry)

end RaftNode

end Cnetmod.Raft
