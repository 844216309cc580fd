import Cnetmod.Raft.Spec.Reactions

/-!
# The saved hard state

As long as no write throws, every public method leaves the hard state saved, so
a restart finds the term, the vote and the indexes the node last acted on. The
part of the hard state a statement is about is a parameter `part`: a restart over
a snapshot may raise the indexes, never the term or the vote.
-/
namespace Cnetmod.Raft

open LogManager Bool RaftStorage

/-- A cast vote; the empty id stands for none. -/
def HardState.vote (s : HardState) : Option NodeId :=
  if s.votedFor = "" then none else some s.votedFor

variable {τ : Type} {part : HardState → τ}

/-- No write will throw, and what the store holds of the hard state is current. -/
structure RaftNode.Saved (part : HardState → τ) (n : RaftNode) : Prop where
  healthy : n.store.faults = []
  saved : part n.mem.state = part n.state

/-- Between its assignments a method runs on a node of this kind. -/
structure RaftNode.Running (n : RaftNode) : Prop where
  healthy : n.store.faults = []
  running : n.stopped = false

namespace RaftNode

variable {n : RaftNode}

lemma persist_of_running (ok : n.Running) :
    n.persist = { n with store := { mem := n.mem.saveHardState n.state, faults := [] } } := by
  unfold persist
  rw [if_neg (by simp [ok.running])]
  unfold saveHardState
  rw [write_healthy ok.healthy]
  simp [ok.healthy, mem]

lemma persist_running (ok : n.Running) : n.persist.Running := by
  rw [persist_of_running ok]
  exact ⟨rfl, ok.running⟩

lemma persist_saved (ok : n.Running) : n.persist.Saved part := by
  rw [persist_of_running ok]
  exact ⟨rfl, rfl⟩

lemma Saved.stop (hs : n.Saved part) (e : RaftError) : (n.stop e).Saved part := by
  refine ⟨?_, ?_⟩
  · simpa using hs.healthy
  · simpa [mem] using hs.saved

lemma Saved.running (hs : n.Saved part) (hr : n.stopped = false) : n.Running := ⟨hs.healthy, hr⟩

variable (part) in
lemma stepDown_running (ok : n.Running) (t : Nat) : (n.stepDown t).Running ∧ (n.stepDown t).Saved part := by
  unfold stepDown
  rw [if_neg (by simp [ok.running])]
  exact ⟨persist_running ⟨ok.healthy, ok.running⟩, persist_saved ⟨ok.healthy, ok.running⟩⟩

lemma stepDown_saved (hs : n.Saved part) (t : Nat) : (n.stepDown t).Saved part := by
  cases hr : n.stopped with
  | true => simpa [stepDown, hr] using hs
  | false => exact (stepDown_running part (hs.running hr) t).2

lemma appendNext_healthy (hh : st.faults = []) (e : LogEntry) :
    ∃ store, LogManager.appendNext st e = (.ok { e with index := st.mem.lastLogIndex + 1 }, store) ∧
      store.faults = [] ∧ store.mem.state = st.mem.state := by
  refine ⟨{ st with mem := st.mem.appendOne { e with index := st.mem.lastLogIndex + 1 } },
    ?_, hh, MemoryStore.appendOne_state _ _⟩
  unfold appendNext appendOne
  simp [write_healthy hh]

lemma adoptConfiguration_running (ok : n.Running) (e : LogEntry) : (n.adoptConfiguration e).Running := by
  have ht : (n.takeConfiguration e).Running := ⟨ok.healthy, ok.running⟩
  unfold adoptConfiguration
  generalize n.takeConfiguration e = n at ht ⊢
  dsimp only
  split
  · exact (stepDown_running (fun st => st) ht _).1
  split
  · split
    · exact ht
    rename_i next _
    obtain ⟨s, hw, hh, _⟩ := appendNext_healthy ht.healthy
      { term := n.state.currentTerm, type := .configuration, configuration := next.state }
    unfold LogManager.appendConfiguration
    rw [hw]
    exact ⟨hh, ht.running⟩
  · exact ht

lemma applyOne_saved (hs : n.Saved part) (hr : n.stopped = false) (e : LogEntry) : (n.applyOne e).1.Saved part := by
  unfold applyOne
  split
  · exact hs
  dsimp only
  split
  · apply Saved.stop
    exact ⟨hs.healthy, hs.saved⟩
  apply persist_saved
  split
  · apply adoptConfiguration_running
    exact ⟨hs.healthy, hr⟩
  · exact ⟨hs.healthy, hr⟩

lemma applyOne_goOn (n : RaftNode) (e : LogEntry) (hg : (n.applyOne e).2 = true) : (n.applyOne e).1.stopped = false := by
  unfold applyOne at hg ⊢
  split at hg
  · simp at hg
  rename_i next
  rw [if_neg next]
  dsimp only at hg ⊢
  split at hg
  · simp at hg
  · simpa using hg

lemma applyLoop_saved (hs : n.Saved part) (hr : n.stopped = false) : (applyLoop k n).Saved part :=
  applyLoop_rule n (P := fun m => m.Saved part ∧ m.stopped = false) (fun _ hm => hm.1) (fun m e hm _ _ =>
    ⟨applyOne_saved hm.1 hm.2 e, fun hg => ⟨applyOne_saved hm.1 hm.2 e, applyOne_goOn m e hg⟩⟩) k ⟨hs, hr⟩

lemma persist_applyCommitted_saved (ok : n.Running) : n.persist.applyCommitted.Saved part := by
  unfold applyCommitted
  split
  · exact persist_saved ok
  · exact applyLoop_saved (persist_saved ok) (persist_running ok).running

/-- Committing what was just appended, or not. -/
lemma commitTo_saved (hs : n.Saved part) (hr : n.stopped = false)
    (i : Nat) : (if n.conf.quorumSize = 1 then n.commitTo i else n).Saved part := by
  split
  · exact persist_applyCommitted_saved ⟨hs.healthy, hr⟩
  · exact hs

lemma of_core_saved {n m : RaftNode} (ha : m.core = n.core) (hs : n.Saved part) : m.Saved part := by
  have ht : m.store = n.store := RaftNode.core_store ha
  have he : m.state = n.state := RaftNode.core_state ha
  exact ⟨by rw [ht]; exact hs.healthy, by rw [mem, ht, he]; exact hs.saved⟩

section

variable (hs : n.Saved part)

include hs

lemma refreshLeaderQuorum_saved : n.refreshLeaderQuorum.Saved part :=
  of_core_saved n.refreshLeaderQuorum_core hs

lemma becomeLeader_saved : n.becomeLeader.Saved part := by
  unfold becomeLeader
  split
  · exact hs
  rename_i hr
  have ht : n.takeLeadership.Saved part := ⟨hs.healthy, hs.saved⟩
  have hr : n.takeLeadership.stopped = false := eq_false_of_not_eq_true hr
  generalize n.takeLeadership = n at ht hr ⊢
  dsimp only
  obtain ⟨st, hw, hh, ha⟩ := appendNext_healthy ht.healthy { term := n.state.currentTerm, type := .noOp }
  unfold appendNoop
  rw [hw]
  have hb : ({ n with store := st }.setSelfProgress (n.lastLogIndex + 1)).Saved part :=
    ⟨hh, (congrArg part ha).trans ht.saved⟩
  have hc := announceLeadership_core { n with store := st } (n.lastLogIndex + 1)
  exact commitTo_saved (of_core_saved hc hb) ((RaftNode.core_stopped hc).trans hr) _

lemma beginElection_saved : n.beginElection.1.Saved part := by
  unfold beginElection
  split
  · exact hs
  rename_i hr
  split
  · exact hs
  dsimp only
  have ht : n.stand.persist.Saved part := persist_saved ⟨hs.healthy, eq_false_of_not_eq_true hr⟩
  split
  · exact becomeLeader_saved ht
  · exact ht

lemma castVote_saved (hr : n.stopped = false) (req : RequestVoteRequest) : (n.castVote req).1.Saved part := by
  unfold castVote
  dsimp only
  split
  · exact persist_saved ⟨hs.healthy, hr⟩
  · exact hs

lemma handleRequestVote_saved (req : RequestVoteRequest) : (n.handleRequestVote req).1.Saved part := by
  unfold handleRequestVote
  split
  · exact hs
  rename_i hr
  have ok : n.Running := ⟨hs.healthy, eq_false_of_not_eq_true hr⟩
  split
  · exact hs
  split
  · exact hs
  split
  · exact hs
  split
  · have ho := stepDown_running part ok req.term
    exact castVote_saved ho.2 ho.1.running req
  · exact castVote_saved hs ok.running req

lemma handleVoteResponse_saved (voter : NodeId)
    (resp : RequestVoteResponse) : (n.handleVoteResponse voter resp).1.Saved part := by
  unfold handleVoteResponse
  split
  · exact hs
  split
  · exact stepDown_saved hs resp.term
  split
  · split
    · exact hs
    · exact ⟨hs.healthy, hs.saved⟩
  split
  · exact hs
  dsimp only
  generalize hm : (if resp.voteGranted = true then
      { n with votesGranted := insert voter n.votesGranted }
    else { n with votesRejected := insert voter n.votesRejected }) = m
  have hc : m.Saved part := by
    rw [← hm]
    split <;> exact ⟨hs.healthy, hs.saved⟩
  split
  · exact becomeLeader_saved hc
  · exact hc

lemma handleTimeoutNow_saved (req : TimeoutNowRequest) : (n.handleTimeoutNow req).1.Saved part := by
  unfold handleTimeoutNow
  split
  · exact hs
  split
  · exact hs
  dsimp only
  have hm : (if req.term > n.state.currentTerm then n.stepDown req.term else n).Saved
      part := by
    split
    · exact stepDown_saved hs req.term
    · exact hs
  generalize (if req.term > n.state.currentTerm then n.stepDown req.term else n) = m
    at hm ⊢
  split
  · exact hm
  · exact beginElection_saved hm

lemma follow_saved (hr : n.stopped = false) (t : Nat) (ld : NodeId) :
    (n.follow t ld).Saved part ∧ (n.follow t ld).stopped = false := by
  unfold follow
  split
  · have ho := stepDown_running part (hs.running hr) t
    exact ⟨⟨ho.2.healthy, ho.2.saved⟩, ho.1.running⟩
  · exact ⟨⟨hs.healthy, hs.saved⟩, hr⟩

end

lemma appendFromLeader_healthy (hh : st.faults = []) (prev pt : Nat) (es : List LogEntry) :
    ∃ appended store, LogManager.appendFromLeader st prev pt es =
      (.ok appended, store) ∧ store.faults = [] ∧ store.mem.state = st.mem.state := by
  unfold appendFromLeader
  split
  · exact ⟨_, _, rfl, hh, rfl⟩
  dsimp only
  generalize scanFromLeader st.mem st.mem.loadSnapshotMetadata.lastIncludedIndex prev es = scan
  obtain ⟨cut, ht, hc, hu⟩ : ∃ cut,
      truncateAt st scan.truncateAt = (.ok (), cut) ∧ cut.faults = [] ∧ cut.mem.state = st.mem.state := by
    cases scan.truncateAt with
    | none => exact ⟨st, rfl, hh, rfl⟩
    | some i =>
      exact ⟨{ st with mem := st.mem.truncateSuffix i }, write_healthy hh (·.truncateSuffix i), hh,
        MemoryStore.truncateSuffix_state _ _⟩
  rw [ht]
  dsimp only
  split
  · exact ⟨_, _, rfl, hc, hu⟩
  unfold append
  rw [write_healthy hc]
  exact ⟨_, _, rfl, hc, (MemoryStore.append_state _ _).trans hu⟩

lemma acceptEntries_saved (ha : n.Saved part) (hr : n.stopped = false)
    (req : AppendEntriesRequest) : (n.acceptEntries req).1.Saved part := by
  obtain ⟨app, st, ran, hh, ht⟩ := appendFromLeader_healthy ha.healthy req.prevLogIndex req.prevLogTerm req.entries
  unfold acceptEntries
  rw [ran]
  dsimp only
  have hs : { n with store := st }.Saved part := ⟨hh, (congrArg part ht).trans ha.saved⟩
  split
  · exact hs
  have hf : (followCommit { n with store := st } req.leaderCommit).Saved part := by
    unfold followCommit
    split
    · exact persist_applyCommitted_saved ⟨hh, hr⟩
    · exact hs
  exact ⟨hf.healthy, hf.saved⟩

lemma acknowledgeReads_saved {ids : List Nat} (hs : n.Saved part) :
    (ids.foldl (fun n id => n.acknowledgeRead p id) n).Saved part := by
  induction ids generalizing n with
  | nil => exact hs
  | cons id tl ih => exact ih ⟨hs.healthy, hs.saved⟩

section

variable (hs : n.Saved part)

include hs

lemma handleAppendEntries_saved (req : AppendEntriesRequest) : (n.handleAppendEntries req).1.Saved part := by
  unfold handleAppendEntries
  split
  · exact hs
  rename_i hr
  split
  · exact hs
  split
  · exact hs
  · have hf := follow_saved hs (eq_false_of_not_eq_true hr) req.term req.leaderId
    exact acceptEntries_saved hf.1 hf.2 req

lemma advanceCommitIndex_saved : n.advanceCommitIndex.Saved part := by
  unfold advanceCommitIndex
  split
  · exact hs
  rename_i hr
  split
  · exact persist_applyCommitted_saved ⟨hs.healthy, eq_false_of_not_eq_true hr⟩
  · exact hs

lemma handleAppendEntriesResponse_saved (p : NodeId)
    (resp : AppendEntriesResponse) : (n.handleAppendEntriesResponse p resp).1.Saved part := by
  unfold handleAppendEntriesResponse
  split
  · exact hs
  split
  · exact stepDown_saved hs resp.term
  split
  · exact hs
  split
  · exact advanceCommitIndex_saved (refreshLeaderQuorum_saved (acknowledgeReads_saved ⟨hs.healthy, hs.saved⟩))
  · exact ⟨hs.healthy, hs.saved⟩

lemma handleInstallSnapshot_saved (req : InstallSnapshotRequest) : (n.handleInstallSnapshot req).1.Saved part := by
  unfold handleInstallSnapshot
  dsimp only
  split
  · exact hs
  rename_i hr
  split
  · exact hs
  split
  · exact hs
  obtain ⟨hf, hr⟩ := follow_saved hs (eq_false_of_not_eq_true hr) req.term req.leaderId
  generalize (if req.uri ≠ "" then { req.metadata with uri := req.uri }
    else req.metadata) = metadata
  split
  · apply Saved.stop
    exact ⟨hf.healthy, hf.saved⟩
  unfold restoreSnapshot
  cases hv : metadata.valid with
  | false => exact ⟨hf.healthy, hf.saved⟩
  | true =>
    simp only [Bool.not_true, false_eq_true, if_false, resetToSnapshot, write_healthy hf.healthy]
    exact persist_saved ⟨hf.healthy, hr⟩

lemma handleInstallSnapshotResponse_saved (p : NodeId) (resp : InstallSnapshotResponse) :
    (n.handleInstallSnapshotResponse p resp).1.Saved part := by
  unfold handleInstallSnapshotResponse
  split
  · exact hs
  split
  · exact stepDown_saved hs resp.term
  split
  · exact hs
  split
  · exact hs
  split
  · exact hs
  · exact advanceCommitIndex_saved (refreshLeaderQuorum_saved ⟨hs.healthy, hs.saved⟩)

lemma appendCommand_saved (cmd : String) : (n.appendCommand cmd).1.Saved part := by
  unfold appendCommand
  split
  · exact hs
  rename_i hr
  split
  · exact hs
  obtain ⟨st, hw, hh, ht⟩ := appendNext_healthy hs.healthy { term := n.state.currentTerm, type := .command, command := cmd }
  unfold appendAsLeader
  rw [hw]
  exact commitTo_saved (n := { n with store := st }) ⟨hh, (congrArg part ht).trans hs.saved⟩ (eq_false_of_not_eq_true hr) _

lemma changeConfiguration_saved (change : ConfigurationChange) : (n.changeConfiguration change).1.Saved part := by
  unfold changeConfiguration
  split
  · exact hs
  rename_i hr
  split
  · exact hs
  split
  · exact hs
  rename_i next _
  unfold appendConfiguration
  split
  · exact hs
  split
  · exact hs
  obtain ⟨st, hw, hh, ht⟩ := appendNext_healthy hs.healthy
    { term := n.state.currentTerm, type := .configuration, configuration := next.state }
  unfold LogManager.appendConfiguration
  rw [hw]
  exact commitTo_saved (n := { n with store := st }.countUnder next _)
    ⟨hh, (congrArg part ht).trans hs.saved⟩
    (eq_false_of_not_eq_true hr) _

lemma createSnapshot_saved (uri : String) : (n.createSnapshot uri).1.Saved part := by
  unfold createSnapshot
  split
  · exact hs
  split
  · exact hs
  dsimp only
  split
  · apply Saved.stop
    exact ⟨hs.healthy, hs.saved⟩
  simp only [saveSnapshotMetadata, compactPrefix, truncatePrefix, write_healthy hs.healthy]
  rw [write_healthy (by exact hs.healthy)]
  exact ⟨hs.healthy, hs.saved⟩

lemma maybeCreateSnapshot_saved (p : RaftSnapshotPolicy) : (n.maybeCreateSnapshot p).1.Saved part := by
  unfold maybeCreateSnapshot
  split
  · exact hs
  split
  · exact hs
  split
  · exact hs
  dsimp only
  split
  · exact hs
  split
  · exact hs
  have hc := createSnapshot_saved hs (n.snapshotUri p)
  split
  · rename_i hr
    rwa [hr] at hc
  rename_i hr
  rw [hr] at hc
  exact ⟨hc.healthy, hc.saved⟩

lemma invoke_saved (call : Call) : (n.invoke call).1.Saved part := by
  cases call with
  | beginPreVote =>
    change n.beginPreVote.1.Saved part
    unfold beginPreVote
    split
    · exact hs
    split
    · exact hs
    · exact ⟨hs.healthy, hs.saved⟩
  | beginElection => exact beginElection_saved hs
  | makeAppendEntries peer => exact hs
  | markAppendSent peer lastIndex | expireReadIndexes timeout => exact ⟨hs.healthy, hs.saved⟩
  | makeInstallSnapshot peer => exact hs
  | markSnapshotSent peer =>
    change (n.markSnapshotSent peer).Saved part
    unfold markSnapshotSent
    dsimp only
    split
    · exact ⟨hs.healthy, hs.saved⟩
    · exact hs
  | appendCommand cmd => exact appendCommand_saved hs cmd
  | changeConfiguration change => exact changeConfiguration_saved hs change
  | transferLeader tgt =>
    obtain ⟨_, hk⟩ := n.transferLeader_eq tgt
    exact hk ▸ ⟨hs.healthy, hs.saved⟩
  | takePendingLeaderTransfer peer =>
    obtain ⟨_, hk⟩ := n.takePendingLeaderTransfer_eq peer
    exact hk ▸ ⟨hs.healthy, hs.saved⟩
  | createSnapshot uri => exact createSnapshot_saved hs uri
  | maybeCreateSnapshot p => exact maybeCreateSnapshot_saved hs p
  | readIndex req =>
    change (n.readIndex req).1.Saved part
    unfold readIndex
    split
    · exact hs
    split
    · exact hs
    · exact ⟨hs.healthy, hs.saved⟩
  | consumeReadIndex id =>
    change (n.consumeReadIndex id).1.Saved part
    unfold consumeReadIndex
    split
    · exact hs
    split
    · exact hs
    · exact ⟨hs.healthy, hs.saved⟩
  | checkLeaderQuorum timeout =>
    change (n.checkLeaderQuorum timeout).1.Saved part
    unfold checkLeaderQuorum
    split
    · exact hs
    split
    · exact hs
    split
    · exact hs
    · exact stepDown_saved hs _
  | stop e => exact hs.stop e

lemma dispatch_saved (src : NodeId) (body : Message) : (n.dispatch src body).1.Saved part := by
  cases body with
  | requestVote req => exact handleRequestVote_saved hs req
  | voteResponse resp => exact handleVoteResponse_saved hs src resp
  | timeoutNow req =>
    have hh := handleTimeoutNow_saved hs req
    unfold dispatch
    dsimp only
    split
    · rename_i hr
      rwa [hr] at hh
    · rename_i hr
      rwa [hr] at hh
  | appendEntries req => exact handleAppendEntries_saved hs req
  | appendResponse resp => exact handleAppendEntriesResponse_saved hs src resp
  | installSnapshot req => exact handleInstallSnapshot_saved hs req
  | installSnapshotResponse resp => exact handleInstallSnapshotResponse_saved hs src resp

/-- A call or a message leaves the hard state saved. -/
lemma react_saved (ck : Int) (hr : ∀ m, inp ≠ .restart m) : (n.react ck inp).1.Saved part := by
  cases inp with
  | call call => exact invoke_saved (n := { n with clock := ck }) ⟨hs.healthy, hs.saved⟩ call
  | receive src body => exact dispatch_saved (n := { n with clock := ck }) ⟨hs.healthy, hs.saved⟩ src body
  | restart m => exact absurd rfl (hr m)

end

/-- The term and the vote, which a restart takes over as they are. -/
def ballot (state : HardState) : Nat × NodeId := (state.currentTerm, state.votedFor)

lemma restart_ballot (n : RaftNode) (m : Option StateMachine) (ck : Int) :
    ballot (n.restart m ck).state = ballot n.mem.state := by
  unfold restart create ballot
  dsimp only
  split <;> rfl

/-- A restarted node has nothing unsaved about its term and vote. -/
lemma restart_saved_ballot (hs : n.Saved ballot) (m : Option StateMachine) (ck : Int) :
    (n.restart m ck).Saved ballot ∧ ballot (n.restart m ck).state = ballot n.state :=
  ⟨⟨hs.healthy, (restart_ballot n m ck).symm⟩, (restart_ballot n m ck).trans hs.saved⟩

/-- Without a snapshot a restart takes over the whole hard state. -/
lemma restart_saved_state (hs : n.Saved fun st => st)
    (hp : n.mem.snapshot.lastIncludedIndex = 0) (m : Option StateMachine) (ck : Int) :
    (n.restart m ck).Saved (fun st => st) ∧ (n.restart m ck).state = n.state := by
  have hi : n.mem.snapshot.valid = false := by simp [SnapshotMetadata.valid, hp]
  have st : (n.restart m ck).state = n.mem.state := by
    unfold restart create MemoryStore.loadSnapshotMetadata MemoryStore.loadHardState
    simp only [show n.store.mem.snapshot.valid = false from hi]
    rfl
  exact ⟨⟨hs.healthy, st.symm⟩, st.trans hs.saved⟩

end RaftNode

end Cnetmod.Raft
