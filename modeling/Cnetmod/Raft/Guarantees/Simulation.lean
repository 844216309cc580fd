import Cnetmod.Consensus.Completeness
import Cnetmod.Raft.Spec.Quorums
import Cnetmod.Raft.Spec.Runs
import Cnetmod.Raft.Spec.Saved

/-!
# A cluster of fixed membership refines the abstract protocol

`Sim` relates a cluster whose configuration never changes to a `History`: stores
are the history's logs, terms and votes agree, leaders own the leader logs, and
every message in flight tells the truth about some earlier moment.

Two groups of clauses are conditional. Under `Guards.replication` the appends in
flight come from leaders, so match indexes are acknowledgements; under
`Guards.commits` commit indexes cover committed entries only. The code secures
neither by itself, so the steps that would break them are excluded by conditions
on the step (`replicationGuard`, `commitGuard`), and what needs neither is proved
for every run.
-/
namespace Cnetmod.Raft

open Consensus

/-- Which conditional clauses are claimed. -/
structure Guards where
  replication : Prop
  commits : Prop
  needs : commits → replication

abbrev RaftHistory := History NodeId LogEntry

/-- The quorums of a configuration that is not joint. -/
noncomputable abbrev Configuration.quorums (conf : Configuration) : QuorumSystem NodeId :=
  majorities conf.voters

/-- A leader's record of having committed is right. -/
structure Recorded (conf : Configuration) (h : RaftHistory) (id : NodeId) (r : CommitRecord) :
    Prop where
  leader : h.lead r.term = some id
  committed : Committed conf.quorums h r.term r.index
  part : r.entries <+: h.llog r.term
  within : r.index ≤ r.entries.length

structure NodeSim (g : Guards) (conf : Configuration) (h : RaftHistory) (id : NodeId)
    (n : RaftNode) : Prop where
  self : n.cfg.id = id
  sameConf : n.conf = conf
  initial : Configuration.ofState n.cfg.initialConfiguration = conf
  healthy : n.store.faults = []
  plain : n.mem.Plain
  fixed : ∀ e ∈ n.mem.entries, e.type ≠ .configuration
  term : h.term id = n.state.currentTerm
  log : h.log id = n.mem.entries
  vote : h.vote id n.state.currentTerm = n.state.vote
  voter : n.role = .candidate ∨ n.role = .leader → conf.contains id = true
  candidate : n.role = .candidate →
    h.cand id n.state.currentTerm = some n.mem.entries ∧
    h.lead n.state.currentTerm ≠ some id ∧
    ∀ q ∈ n.votesGranted, h.vote q n.state.currentTerm = some id
  leader : n.role = .leader → h.lead n.state.currentTerm = some id ∧ h.llog n.state.currentTerm = n.mem.entries
  credit : g.replication → n.role = .leader → ∀ peer p, peer ≠ id →
    n.progress.get peer = some p → p.matchIndex ≤ h.ack peer n.state.currentTerm
  commits : g.replication → ∀ r ∈ n.history.commits, Recorded conf h id r
  ownCommits : g.replication → n.role = .leader → ∀ r ∈ n.history.commits,
    r.term = n.state.currentTerm → r.index ≤ n.state.commitIndex ∧ r.index ≤ n.mem.entries.length
  settled : g.commits → Settled conf.quorums h n.state.currentTerm n.mem.entries n.state.commitIndex
  passed : g.commits → ∀ e ∈ n.history.passed, ∃ T c, Committed conf.quorums h T c ∧
    0 < e.index ∧ e.index ≤ c ∧ (h.llog T)[e.index - 1]? = some e

/-- The request offers a part of `log`, after the entry it names as previous. A
next index past the sender's log gives the second form. -/
def Offers (req : AppendEntriesRequest) (log : List LogEntry) : Prop :=
  (req.prevLogIndex ≤ log.length ∧
    (0 < req.prevLogIndex → ∃ e, log[req.prevLogIndex - 1]? = some e ∧ req.prevLogTerm = e.term) ∧
    (req.prevLogIndex = 0 → req.prevLogTerm = 0) ∧
    req.entries <+: log.drop req.prevLogIndex) ∨
  (log.length < req.prevLogIndex ∧ req.prevLogTerm = 0 ∧ req.entries = [])

/-- What a message says holds of the history. -/
def MessageSim (g : Guards) (conf : Configuration) (h : RaftHistory) (m : Envelope) : Prop :=
  match m.body with
  | .requestVote req => req.preVote = false → req.candidateId ≠ "" →
      m.src = req.candidateId ∧ ∃ log, h.cand m.src req.term = some log ∧
        req.lastLogIndex = log.length ∧ req.lastLogTerm = lastTerm LogEntry.term log
  | .voteResponse resp => resp.preVote = false → resp.voteGranted = true →
      ∃ candidate, m.dst = some candidate ∧ h.vote m.src resp.term = some candidate
  | .appendEntries req => ∃ log, SoundLog LogEntry.term h req.term log ∧ NumberedFrom 0 log ∧
      (∀ e ∈ log, e.type ≠ .configuration) ∧ Offers req log ∧
      (g.replication → FromLeader h req.term log) ∧
      (g.commits → Settled conf.quorums h req.term log req.leaderCommit)
  | .appendResponse resp => g.replication → resp.success = true →
      resp.matchIndex ≤ h.ack m.src resp.term
  | .timeoutNow _ => True
  | .installSnapshot _ => False
  | .installSnapshotResponse _ => False

structure Sim (g : Guards) (conf : Configuration) (c : Cluster) (h : RaftHistory) : Prop where
  logInv : LogInv conf.quorums LogEntry.term h
  commitInv : g.replication → CommitInv conf.quorums h
  nodes : ∀ id ∈ c.members, NodeSim g conf h id (c.nodes id)
  sent : ∀ m ∈ c.sent, MessageSim g conf h m

/-- What a copied log may be. -/
def Copied (g : Guards) (h : RaftHistory) (t : Nat) (log : List LogEntry) : Prop :=
  SoundLog LogEntry.term h t log ∧ (g.replication → FromLeader h t log)

/-- The abstract steps a node of the cluster takes. -/
abbrev ClusterStep (g : Guards) (conf : Configuration) : RaftHistory → RaftHistory → Prop :=
  Step conf.quorums LogEntry.term (Copied g)

/-- `h'` extends `h` by something `id` did. -/
structure Local (id : NodeId) (h h' : RaftHistory) : Prop where
  ext : h.Extends h'
  term : ∀ q, q ≠ id → h'.term q = h.term q
  log : ∀ q, q ≠ id → h'.log q = h.log q
  vote : ∀ q t, q ≠ id → h'.vote q t = h.vote q t
  lead : ∀ q t, q ≠ id → h'.lead t = some q → h.lead t = some q
  llog : ∀ q t, q ≠ id → h.lead t = some q → h'.llog t = h.llog t

lemma Local.refl (id : NodeId) (h : RaftHistory) : Local id h h :=
  ⟨.refl h, fun _ _ => rfl, fun _ _ => rfl, fun _ _ _ => rfl, fun _ _ _ hh => hh, fun _ _ _ _ => rfl⟩

lemma Local.trans {id : NodeId} (hf : Local id h h') (hs : Local id h' h'') : Local id h h'' where
  ext := hf.ext.trans hs.ext
  term q ho := (hs.term q ho).trans (hf.term q ho)
  log q ho := (hs.log q ho).trans (hf.log q ho)
  vote q t ho := (hs.vote q t ho).trans (hf.vote q t ho)
  lead q t ho hl := hf.lead q t ho (hs.lead q t ho hl)
  llog q t ho hl := (hs.llog q t ho (hf.ext.lead hl)).trans (hf.llog q t ho hl)

section Mono

variable {g : Guards} {conf : Configuration} {h h' : RaftHistory} {id q : NodeId} {n m : RaftNode}

lemma passed_mono (ext : h.Extends h')
    (ha : ∃ T c, Committed conf.quorums h T c ∧ 0 < e.index ∧ e.index ≤ c ∧ (h.llog T)[e.index - 1]? = some e) :
    ∃ T c, Committed conf.quorums h' T c ∧ 0 < e.index ∧ e.index ≤ c ∧ (h'.llog T)[e.index - 1]? = some e := by
  obtain ⟨T, c, done, hp, hw, hf⟩ := ha
  exact ⟨T, c, done.mono ext, hp, hw, prefix_getElem? (ext.llog done.led) hf⟩

lemma record_mono (ext : h.Extends h') (hr : Recorded conf h id r) : Recorded conf h' id r :=
  ⟨ext.lead hr.leader, hr.committed.mono ext, hr.part.trans (ext.llog hr.committed.led), hr.within⟩

/-- What the others do does not disturb a node. -/
lemma NodeSim.mono (sim : NodeSim g conf h q n) (hs : Local id h h') (ho : q ≠ id)
    (hc : g.replication → CommitInv conf.quorums h) : NodeSim g conf h' q n where
  self := sim.self
  sameConf := sim.sameConf
  initial := sim.initial
  healthy := sim.healthy
  plain := sim.plain
  fixed := sim.fixed
  term := (hs.term q ho).trans sim.term
  log := (hs.log q ho).trans sim.log
  vote := (hs.vote q _ ho).trans sim.vote
  voter := sim.voter
  candidate hr := by
    obtain ⟨ht, hv, hb⟩ := sim.candidate hr
    exact ⟨hs.ext.cand ht, fun hl => hv (hs.lead q _ ho hl), fun p hm => hs.ext.vote (hb p hm)⟩
  leader hr := by
    obtain ⟨hl, log⟩ := sim.leader hr
    exact ⟨hs.ext.lead hl, (hs.llog q _ ho hl).trans log⟩
  credit hg hr peer p ha hf := (sim.credit hg hr peer p ha hf).trans (hs.ext.ack _ _)
  commits hg r hm := record_mono hs.ext (sim.commits hg r hm)
  ownCommits := sim.ownCommits
  settled hg := (sim.settled hg).mono (hc (g.needs hg)) hs.ext (le_rfl) List.prefix_rfl
  passed hg e hm := passed_mono hs.ext (sim.passed hg e hm)

lemma MessageSim.mono (ext : h.Extends h') (hc : g.replication → CommitInv conf.quorums h) {m : Envelope}
    (sim : MessageSim g conf h m) : MessageSim g conf h' m := by
  unfold MessageSim at sim ⊢
  split at sim
  · intro hb ha
    obtain ⟨src, log, ht, hr⟩ := sim hb ha
    exact ⟨src, log, ext.cand ht, hr⟩
  · intro hb he
    obtain ⟨candidate, dst, hv⟩ := sim hb he
    exact ⟨candidate, dst, ext.vote hv⟩
  · obtain ⟨log, hj, hn, hk, ho, hf, hs⟩ := sim
    refine ⟨log, hj.mono ext (le_rfl), hn, hk, ho, fun hg => ?_, fun hg => ?_⟩
    · obtain ⟨led, hp⟩ := hf hg
      exact ⟨ext.lead_ne led, hp.trans (ext.llog led)⟩
    · exact (hs hg).mono (hc (g.needs hg)) ext (le_rfl) List.prefix_rfl
  · intro hg hu
    exact (sim hg hu).trans (ext.ack _ _)
  · trivial
  · exact sim
  · exact sim

lemma NodeSim.of_core (hs : m.core = n.core) (sim : NodeSim g conf h id n) : NodeSim g conf h id m := by
  have cfg : m.cfg = n.cfg := RaftNode.core_cfg hs
  have ho : m.store = n.store := RaftNode.core_store hs
  have ht : m.state = n.state := RaftNode.core_state hs
  have hr : m.role = n.role := RaftNode.core_role hs
  have ha : m.conf = n.conf := RaftNode.core_conf hs
  have hv : m.votesGranted = n.votesGranted := RaftNode.core_votesGranted hs
  have hp : m.progress = n.progress := RaftNode.core_progress hs
  have hb : m.history.passed = n.history.passed := congrArg Core.passed hs
  have hc : m.history.commits = n.history.commits := RaftNode.core_commits hs
  have mem : m.mem = n.mem := congrArg RaftStorage.mem ho
  constructor
  · rw [cfg]; exact sim.self
  · rw [ha]; exact sim.sameConf
  · rw [cfg]; exact sim.initial
  · rw [ho]; exact sim.healthy
  · rw [mem]; exact sim.plain
  · rw [mem]; exact sim.fixed
  · rw [ht]; exact sim.term
  · rw [mem]; exact sim.log
  · rw [ht]; exact sim.vote
  · rw [hr]; exact sim.voter
  · rw [hr, ht, mem, hv]; exact sim.candidate
  · rw [hr, ht, mem]; exact sim.leader
  · rw [hr, ht, hp]; exact sim.credit
  · rw [hc]; exact sim.commits
  · rw [hr, ht, mem, hc]; exact sim.ownCommits
  · rw [ht, mem]; exact sim.settled
  · rw [hb]; exact sim.passed

end Mono

/-- A node did something that its own clauses and its messages account for. -/
lemma Sim.put
    {id : NodeId} (sim : Sim g conf c h)
    (ht : Local id h h') (hl : LogInv conf.quorums LogEntry.term h')
    (hc : g.replication → CommitInv conf.quorums h') (hn : NodeSim g conf h' id n)
    (he : ∀ m ∈ out, MessageSim g conf h' m) : Sim g conf (c.put id n out) h' where
  logInv := hl
  commitInv := hc
  nodes q hm := by
    by_cases hs : q = id
    · subst hs
      simpa [Cluster.put] using hn
    · simpa [Cluster.put, hs] using (sim.nodes q hm).mono ht hs sim.commitInv
  sent m hm := by
    rcases List.mem_append.mp hm with old | new
    · exact (sim.sent m old).mono ht.ext sim.commitInv
    · exact he m new

end Cnetmod.Raft
