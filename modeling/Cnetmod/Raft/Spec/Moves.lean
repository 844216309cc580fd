import Cnetmod.Raft.Source.Cluster
import Cnetmod.Raft.Spec.NumberedLog

/-!
# What a call can do to a node

Every public method is a sequence of a few kinds of moves: leave an older term,
stand, vote, win, append, accept a leader's entries, commit, apply and so on. A
`Move` states one of them with everything the code has checked by then, and the
messages that go out on account of it; bookkeeping that no guarantee speaks
about is `quiet`. `react_activity` takes each method apart into moves once, and
every invariant is then a fact about single moves.

Storage faults are part of the picture: a save that throws is a `persist` move
that stops the node, any other throwing write a `fault`.
-/
namespace Cnetmod.Raft

/-- Messages that promise their receiver nothing: pre-votes, refusals and
requests to campaign. -/
def Message.Idle : Message → Prop
  | .requestVote req => req.preVote = true ∨ req.candidateId = ""
  | .voteResponse resp => resp.preVote = true ∨ resp.voteGranted = false
  | .appendResponse resp => resp.success = false
  | .timeoutNow _ => True
  | .installSnapshotResponse _ => False
  | .appendEntries _ => False
  | .installSnapshot _ => False

/-- The term and the configuration under which a call stands for election. -/
def standing (n : RaftNode) : Input → Option (Nat × Configuration)
  | .call .beginElection =>
    if n.stopped || !n.conf.contains n.id then none else some (n.state.currentTerm + 1, n.conf)
  | .receive _ (.timeoutNow req) =>
    if n.stopped || !n.conf.contains n.id || !n.conf.contains req.leaderId ||
        req.term < n.state.currentTerm || (n.leaderId ≠ "" && n.leaderId ≠ req.leaderId) then none
    else some (req.term + 1, n.conf)
  | _ => none

/-- The configuration under which a call asks for `quorum_size() == 1`, to commit
what it has just appended as a leader. -/
def countsUnder (n : RaftNode) (input : Input) : Option Configuration :=
  match input with
  | .call (.appendCommand _) => if n.stopped || n.role ≠ .leader then none else some n.conf
  | .call (.changeConfiguration change) =>
    if n.stopped || n.role ≠ .leader || n.configurationPending then none
    else (change.apply n.conf).toOption
  | .receive src (.voteResponse resp) =>
    if n.stopped || n.role ≠ .candidate || resp.preVote || resp.term ≠ n.state.currentTerm then none
    else if n.conf.hasQuorum (if resp.voteGranted then insert src n.votesGranted
        else n.votesGranted) then some n.conf
    else none
  | _ => if (standing n input).isSome && n.conf.hasQuorum {n.id} then some n.conf else none

/-- Whether a call may get as far as applying the entry at `index`. -/
def mayApply (n : RaftNode) (input : Input) (index : Nat) : Bool :=
  match input with
  | .receive _ (.appendEntries req) =>
    !n.stopped && n.state.currentTerm ≤ req.term && n.conf.contains req.leaderId &&
      n.state.commitIndex < req.leaderCommit && index ≤ req.leaderCommit
  | .receive _ (.appendResponse resp) =>
    !n.stopped && n.role = .leader && resp.term = n.state.currentTerm && resp.success
  | .receive _ (.installSnapshotResponse resp) =>
    !n.stopped && n.role = .leader && resp.term = n.state.currentTerm && resp.success
  | _ => (countsUnder n input).any (·.quorumSize = 1)

/-- Whether a call gets as far as writing snapshot metadata. -/
def savesSnapshot (n : RaftNode) : Input → Bool
  | .call (.createSnapshot _) => !n.stopped && n.state.commitIndex ≠ 0
  | .call (.maybeCreateSnapshot policy) =>
    !n.stopped && n.state.commitIndex ≠ 0 && policy.logEntriesThreshold ≠ 0 &&
      n.mem.snapshot.lastIncludedIndex < n.state.commitIndex &&
      policy.logEntriesThreshold ≤ n.state.commitIndex + 1 - n.mem.firstLogIndex
  | _ => false

/-- Whether a node takes its snapshots from the sender. -/
def heedsSnapshot (n : RaftNode) (req : InstallSnapshotRequest) : Bool :=
  !n.stopped && n.state.currentTerm ≤ req.term && (n.conf.contains req.leaderId || n.conf.empty)

/-- The sender and the term of a response to an append or a snapshot. -/
def Input.response : Input → Option (NodeId × Nat)
  | .receive src (.appendResponse resp) => some (src, resp.term)
  | .receive src (.installSnapshotResponse resp) => some (src, resp.term)
  | _ => none

/-- Contact with a quorum is noted with a response, or by a new leader. -/
def mayRefresh (start : RaftNode) (input : Input) (term : Nat) : Prop :=
  input.response.isSome = true ∨ start.role ≠ .leader ∨ start.state.currentTerm < term

/-- The metadata of the snapshot on offer. -/
def InstallSnapshotRequest.offered (req : InstallSnapshotRequest) : SnapshotMetadata :=
  if req.uri ≠ "" then { req.metadata with uri := req.uri } else req.metadata

/-- No peer is credited with any entry yet. -/
def ProgressTracker.Fresh (t : ProgressTracker) (self : NodeId) : Prop :=
  ∀ peer p, peer ≠ self → t.get peer = some p → p.matchIndex = 0

/-- The request a node sends out when it stands. -/
def RaftNode.ballotRequest (n : RaftNode) : RequestVoteRequest where
  term := n.state.currentTerm + 1
  candidateId := n.id
  lastLogIndex := n.lastLogIndex
  lastLogTerm := lastLogTerm n.mem

/-- The commit index after an accepted append that left `mem`. -/
def RaftNode.followedCommit (n : RaftNode) (leaderCommit : Nat) (mem : MemoryStore) : Nat :=
  if leaderCommit > n.state.commitIndex then min leaderCommit mem.lastLogIndex
  else n.state.commitIndex

/-- What the guarantees speak about. The rest is the leader hint, contact times,
the state machine, pending transfers and the like. -/
structure Core where
  cfg : RaftConfig
  store : RaftStorage
  state : HardState
  role : NodeRole
  conf : Configuration
  votesGranted : Finset NodeId
  progress : ProgressTracker
  pendingReads : List PendingRead
  stopped : Bool
  passed : List LogEntry
  commits : List CommitRecord
  stood : List (Nat × Configuration)
  committedConf : Configuration

def RaftNode.core (n : RaftNode) : Core where
  cfg := n.cfg
  store := n.store
  state := n.state
  role := n.role
  conf := n.conf
  votesGranted := n.votesGranted
  progress := n.progress
  pendingReads := n.pendingReads
  stopped := n.stopped
  passed := n.history.passed
  commits := n.history.commits
  stood := n.history.stood
  committedConf := n.history.committedConf

namespace RaftNode

variable {n m : RaftNode} (hs : m.core = n.core)

include hs

lemma core_cfg : m.cfg = n.cfg := congrArg Core.cfg hs

lemma core_store : m.store = n.store := congrArg Core.store hs

lemma core_mem : m.mem = n.mem := congrArg (·.store.mem) hs

lemma core_state : m.state = n.state := congrArg Core.state hs

lemma core_role : m.role = n.role := congrArg Core.role hs

lemma core_conf : m.conf = n.conf := congrArg Core.conf hs

lemma core_votesGranted : m.votesGranted = n.votesGranted :=
  congrArg Core.votesGranted hs

lemma core_progress : m.progress = n.progress :=
  congrArg Core.progress hs

lemma core_pendingReads : m.pendingReads = n.pendingReads :=
  congrArg Core.pendingReads hs

lemma core_commits : m.history.commits = n.history.commits :=
  congrArg Core.commits hs

lemma core_stopped : m.stopped = n.stopped :=
  congrArg Core.stopped hs

end RaftNode

/-- One thing the code does to a node while it handles `input`, having started
from `start`, and the messages it sends along. -/
inductive Move (start : RaftNode) (input : Input) :
    RaftNode → RaftNode → List Envelope → Prop where
  | quiet {n m : RaftNode} (same : m.core = n.core)
      (contact : m.lastQuorumContact = n.lastQuorumContact ∨ mayRefresh start input n.state.currentTerm) :
      Move start input n m []
  | say (n : RaftNode) (dst : Option NodeId) (body : Message) (idle : body.Idle) :
      Move start input n n (n.post dst body)
  | answerSnapshot (n : RaftNode) (src : NodeId) (req : InstallSnapshotRequest)
      (resp : InstallSnapshotResponse) (received : input = .receive src (.installSnapshot req)) :
      Move start input n n (n.post src (.installSnapshotResponse resp))
  | sendAppend (n : RaftNode) (peer : NodeId) (asked : input = .call (.makeAppendEntries peer))
      (same : n.core = start.core) :
      Move start input n n (n.post peer (.appendEntries (n.makeAppendEntries peer)))
  | sendSnapshot (n : RaftNode) (peer : NodeId)
      (asked : input = .call (.makeInstallSnapshot peer)) :
      Move start input n n (n.post peer (.installSnapshot n.makeInstallSnapshot))
  | persist (n : RaftNode) : Move start input n n.persist []
  | stop (n : RaftNode) (error : RaftError) : Move start input n (n.stop error) []
  | fault (n : RaftNode) :
      Move start input n { n with store := { mem := n.mem, faults := n.store.faults.drop 1 } } []
  | retire (n : RaftNode) :
      Move start input n { n with role := .follower, votesGranted := ∅, pendingReads := [] } []
  | newTerm (n : RaftNode) (term : Nat) (later : n.state.currentTerm < term) :
      Move start input n
        { n with
          role := .follower, votesGranted := ∅, pendingReads := []
          state.currentTerm := term, state.votedFor := "" } []
  | canvass (n : RaftNode) (votes : Finset NodeId) :
      Move start input n { n with role := .preCandidate, votesGranted := votes } []
  | stand (n : RaftNode) (member : n.conf.contains n.id = true)
      (stands : standing start input = some (n.state.currentTerm + 1, n.conf)) :
      Move start input n n.stand (n.post none (.requestVote n.ballotRequest))
  | grant (n : RaftNode) (src : NodeId) (req : RequestVoteRequest)
      (received : input = .receive src (.requestVote req)) (binding : req.preVote = false)
      (member : n.conf.contains req.candidateId = true)
      (current : req.term = n.state.currentTerm)
      (unspent : n.state.votedFor = "" ∨ n.state.votedFor = req.candidateId)
      (logOk : isLogAtLeastUpToDate n.mem req.lastLogIndex req.lastLogTerm = true) :
      Move start input n { n with state.votedFor := req.candidateId }
        (n.post src (.voteResponse { term := n.state.currentTerm, voteGranted := true }))
  | tally (n : RaftNode) (src : NodeId) (resp : RequestVoteResponse)
      (received : input = .receive src (.voteResponse resp)) (binding : resp.preVote = false)
      (granted : resp.voteGranted = true) (candidate : n.role = .candidate)
      (current : resp.term = n.state.currentTerm) :
      Move start input n { n with votesGranted := insert src n.votesGranted } []
  | win (n : RaftNode) (progress : ProgressTracker) (candidate : n.role = .candidate)
      (elected : n.conf.hasQuorum n.votesGranted = true) (fresh : progress.Fresh n.id) :
      Move start input n { n with role := .leader, votesGranted := ∅, progress := progress } []
  | append (n : RaftNode) (entry : LogEntry) (leads : n.role = .leader)
      (next : entry.index = n.lastLogIndex + 1) (stamped : entry.term = n.state.currentTerm)
      (kind : entry.type = .configuration → ∃ change next,
        input = .call (.changeConfiguration change) ∧ change.apply start.conf = .ok next ∧ entry.configuration = next.state) :
      Move start input n
        { n with
          store := { mem := n.mem.appendOne entry, faults := n.store.faults.drop 1 } } []
  | selfProgress (n : RaftNode) (matched : Nat) :
      Move start input n (n.setSelfProgress matched) []
  | probe (n : RaftNode) (progress : ProgressTracker)
      (same : ∀ peer, (progress.get peer).map (·.matchIndex) = (n.progress.get peer).map (·.matchIndex)) :
      Move start input n { n with progress := progress } []
  | reconfigure (n : RaftNode) (change : RaftNode.ConfigurationChange) (next : Configuration)
      (progress : ProgressTracker) (asked : input = .call (.changeConfiguration change))
      (changes : change.apply start.conf = .ok next) (leads : n.role = .leader)
      (fresh : progress.Fresh n.id) :
      Move start input n { n with conf := next, progress := progress } []
  | replicate (n : RaftNode) (src : NodeId) (resp : AppendEntriesResponse)
      (received : input = .receive src (.appendResponse resp)) (success : resp.success = true)
      (leads : n.role = .leader) (current : resp.term = n.state.currentTerm) :
      Move start input n { n with progress := n.progress.markReplicated src resp.matchIndex } []
  | replicateSnapshot (n : RaftNode) (src : NodeId) (resp : InstallSnapshotResponse) (index : Nat)
      (received : input = .receive src (.installSnapshotResponse resp))
      (leads : n.role = .leader) :
      Move start input n { n with progress := n.progress.markReplicated src index } []
  | readAck (n : RaftNode) (src : NodeId) (resp : AppendEntriesResponse) (id : Nat)
      (received : input = .receive src (.appendResponse resp)) (success : resp.success = true)
      (leads : n.role = .leader) (current : resp.term = n.state.currentTerm)
      (member : id ∈ resp.readAcks) (unchanged : n.conf = start.conf) :
      Move start input n (n.acknowledgeRead src id) []
  | commitQuorum (n : RaftNode) (index : Nat) (leads : n.role = .leader)
      (quorum : configurationHasQuorum n.conf (n.matched index) = true)
      (own : n.mem.termAt index = n.state.currentTerm) (above : n.state.commitIndex < index)
      (reach : index ≤ n.lastLogIndex) :
      Move start input n (n.setCommitAsLeader index) []
  | commitAlone (n : RaftNode) (index : Nat) (leads : n.role = .leader)
      (alone : n.conf.quorumSize = 1) (counts : countsUnder start input = some n.conf)
      (positive : 0 < index)
      (newest : n.mem.snapshot.lastIncludedIndex < index →
        ∃ e, n.mem.entries.getLast? = some e ∧ e.index = index ∧ e.term = n.state.currentTerm) :
      Move start input n (n.setCommitAsLeader index) []
  | accept (n : RaftNode) (src : NodeId) (req : AppendEntriesRequest) (appended : AppendResult)
      (store : RaftStorage) (received : input = .receive src (.appendEntries req))
      (follows : n.role = .follower) (current : req.term = n.state.currentTerm)
      (sameEntries : n.mem.entries = start.mem.entries)
      (sameSnapshot : n.mem.snapshot = start.mem.snapshot)
      (sameCommit : n.state.commitIndex = start.state.commitIndex)
      (ran : LogManager.appendFromLeader n.store req.prevLogIndex req.prevLogTerm req.entries =
        (.ok appended, store)) (success : appended.success = true) :
      Move start input n
        { n with
          store := store
          state.commitIndex := n.followedCommit req.leaderCommit store.mem }
        (n.post src (.appendResponse
          { term := n.state.currentTerm, success := true, matchIndex := appended.matchIndex
            readAcks := req.readContexts.map (·.id) }))
  | torn (n : RaftNode) (src : NodeId) (req : AppendEntriesRequest) (thrown : Thrown)
      (store : RaftStorage) (received : input = .receive src (.appendEntries req))
      (follows : n.role = .follower)
      (ran : LogManager.appendFromLeader n.store req.prevLogIndex req.prevLogTerm req.entries = (.error thrown, store)) :
      Move start input n { n with store := store } []
  | pass (n : RaftNode) (entry : LogEntry) (stored : entry ∈ n.mem.entries)
      (next : entry.index = n.state.lastApplied + 1) (due : entry.index ≤ n.state.commitIndex) :
      Move start input n { n with history.passed := n.history.passed ++ [entry] } []
  | applied (n : RaftNode) (entry : LogEntry) (stored : entry ∈ n.mem.entries)
      (next : entry.index = n.state.lastApplied + 1) (due : entry.index ≤ n.state.commitIndex) :
      Move start input n { n with state.lastApplied := entry.index } []
  | adopt (n : RaftNode) (entry : LogEntry) (stored : entry ∈ n.mem.entries)
      (next : entry.index = n.state.lastApplied + 1) (due : entry.index ≤ n.state.commitIndex)
      (may : mayApply start input entry.index = true) (kind : entry.type = .configuration)
      (settled : n.role = .leader ∨ n.role = .follower) :
      Move start input n
        { n with
          state.lastApplied := entry.index
          conf := Configuration.ofState entry.configuration
          history.committedConf := Configuration.ofState entry.configuration } []
  | adoptLeaving (n : RaftNode) (entry leave : LogEntry) (stored : entry ∈ n.mem.entries)
      (next : entry.index = n.state.lastApplied + 1) (due : entry.index ≤ n.state.commitIndex)
      (may : mayApply start input entry.index = true) (kind : entry.type = .configuration)
      (joint : (Configuration.ofState entry.configuration).joint = true)
      (leads : n.role = .leader) (last : leave.index = n.lastLogIndex + 1)
      (stamped : leave.term = n.state.currentTerm) :
      Move start input n
        { n with
          state.lastApplied := entry.index
          conf := Configuration.ofState entry.configuration
          history.committedConf := Configuration.ofState entry.configuration
          store := { mem := n.mem.appendOne leave, faults := n.store.faults.drop 1 } } []
  | restore (n : RaftNode) (src : NodeId) (req : InstallSnapshotRequest)
      (metadata : SnapshotMetadata) (received : input = .receive src (.installSnapshot req))
      (offered : metadata = req.offered) (valid : metadata.valid = true)
      (heeded : heedsSnapshot start req = true) (follows : n.role = .follower)
      (current : req.term = n.state.currentTerm) :
      Move start input n
        (RaftNode.adoptSnapshot
          { n with
            store := { mem := n.mem.resetToSnapshot metadata, faults := n.store.faults.drop 1 } }
          metadata) []
  | saveMetadata (n : RaftNode) (uri : String) (metadata : SnapshotMetadata)
      (asked : input = .call (.createSnapshot uri) ∨ ∃ policy, input = .call (.maybeCreateSnapshot policy))
      (saves : savesSnapshot start input = true)
      (made : metadata = { lastIncludedIndex := n.state.commitIndex
                           lastIncludedTerm := n.mem.termAt n.state.commitIndex
                           uri := uri, configuration := n.conf.state })
      (some : n.state.commitIndex ≠ 0) (unchanged : n.conf = start.conf) :
      Move start input n
        { n with
          store := { mem := n.mem.saveSnapshotMetadata metadata
                     faults := n.store.faults.drop 1 } } []
  | compact (n : RaftNode)
      (asked : (∃ uri, input = .call (.createSnapshot uri)) ∨ ∃ policy, input = .call (.maybeCreateSnapshot policy)) :
      Move start input n
        { n with
          store := { mem := n.mem.truncatePrefix (n.mem.snapshot.lastIncludedIndex + 1)
                     faults := n.store.faults.drop 1 } } []
  | readIndex (n : RaftNode) (request : ReadIndexRequest)
      (asked : input = .call (.readIndex request)) (leads : n.role = .leader) (read : PendingRead)
      (made : read = { id := request.id, term := n.state.currentTerm
                       index := n.state.commitIndex, context := request.context
                       acked := {n.id}, createdAt := n.clock, ready := read.ready })
      (granted : read.ready = true → n.conf.hasQuorum {n.id} = true ∨
        n.cfg.options.leaseRead = true) (unchanged : n.conf = start.conf) :
      Move start input n { n with pendingReads := RaftNode.putRead read n.pendingReads } []
  | dropReads (n : RaftNode) (reads : List PendingRead) (kept : reads.Sublist n.pendingReads) :
      Move start input n { n with pendingReads := reads } []

/-- A sequence of moves with the messages they send. -/
inductive Activity (start : RaftNode) (input : Input) :
    RaftNode → RaftNode → List Envelope → Prop where
  | done (n : RaftNode) : Activity start input n n []
  | step {n m k : RaftNode} {out rest : List Envelope} (move : Move start input n m out)
      (tail : Activity start input m k rest) : Activity start input n k (out ++ rest)

namespace Activity

lemma of_move (hm : Move n0 inp n m out) : Activity n0 inp n m out := by
  simpa using Activity.step hm (.done m)

lemma trans (hf : Activity n0 inp n m out) (hs : Activity n0 inp m k rest) : Activity n0 inp n k (out ++ rest) := by
  induction hf with
  | done => exact hs
  | step hm _ ih =>
    rw [List.append_assoc]
    exact .step hm (ih hs)

/-- Most pieces send nothing. -/
lemma then_ (hf : Activity n0 inp n m out) (hs : Activity n0 inp m k []) : Activity n0 inp n k out := by
  simpa using hf.trans hs

lemma after (hf : Activity n0 inp n m []) (hs : Activity n0 inp m k out) : Activity n0 inp n k out := by
  simpa using hf.trans hs

/-- What every move keeps, a call keeps. -/
lemma invariant (kept : RaftNode → Prop) (hs : ∀ {n m out}, Move n0 inp n m out → kept n → kept m)
    (ha : Activity n0 inp n m out) (hh : kept n) : kept m := by
  induction ha with
  | done => exact hh
  | step hm _ ih => exact ih (hs hm hh)

/-- What every move says of its messages under an invariant, a call says. -/
lemma messages (kept : RaftNode → Prop) (said : Envelope → Prop)
    (hs : ∀ {n m out}, Move n0 inp n m out → kept n → kept m ∧ ∀ e ∈ out, said e)
    (ha : Activity n0 inp n m out) (hb : kept n) : ∀ e ∈ out, said e := by
  induction ha with
  | done => simp
  | step ho _ ih =>
    intro e hm
    obtain ⟨hh, now⟩ := hs ho hb
    rcases List.mem_append.mp hm with hf | hl
    · exact now e hf
    · exact ih hh e hl

end Activity

end Cnetmod.Raft
