import Cnetmod.Raft.Guarantees.Simulation

/-!
# Every move is simulated

Each kind of move is answered by at most two steps of the abstract protocol.
-/
namespace Cnetmod.Raft

open HardState Configuration Consensus Function
open List hiding merge

/-- Inputs of a run without membership changes and snapshots. -/
def Input.fixed : Input → Bool
  | .call (.changeConfiguration _) => false
  | .call (.createSnapshot _) => false
  | .call (.maybeCreateSnapshot _) => false
  | .call (.makeInstallSnapshot _) => false
  | _ => true

/-- Appends are made by leaders only, and one that names no previous term does
not reach beyond the receiver's log. -/
def replicationGuard (n : RaftNode) : Input → Bool
  | .call (.makeAppendEntries _) => n.role = .leader
  | .receive _ (.appendEntries req) => req.prevLogTerm ≠ 0 || req.prevLogIndex ≤ n.lastLogIndex
  | _ => true

/-- Some offered entry meets a stored one of another term. -/
def conflicts (mem : MemoryStore) (entries : List LogEntry) : Bool :=
  entries.any fun e => mem.termAt e.index ≠ 0 && mem.termAt e.index ≠ e.term

/-- A leader's commit index does not reach past the entries the request vouches
for while the receiver keeps entries of its own there. -/
def commitGuard (n : RaftNode) : Input → Bool
  | .receive _ (.appendEntries req) =>
    req.leaderCommit ≤ n.state.commitIndex ||
      req.leaderCommit ≤ req.prevLogIndex + req.entries.length ||
      n.lastLogIndex ≤ req.prevLogIndex + req.entries.length ||
      conflicts n.mem req.entries
  | _ => true

/-- The step a node takes is one the simulation covers. -/
structure Admissible (g : Guards) (c : Cluster) (id : NodeId) (start : RaftNode) (input : Input) :
    Prop where
  fixed : input.fixed = true
  delivered : ∀ src body, input = .receive src body → ∃ m ∈ c.sent, m.src = src ∧ m.body = body ∧ m.addressedTo id = true
  replication : g.replication → replicationGuard start input = true
  commits : g.commits → commitGuard start input = true

section Steps

variable {g : Guards} {conf : Configuration} {c : Cluster} {h h' : RaftHistory} {id : NodeId}
  {n0 n m : RaftNode} {inp : Input}

lemma Admissible.envelope (ha : Admissible g c id n0 inp) (hr : inp = .receive src body) :
    ∃ dst, (⟨src, dst, body⟩ : Envelope) ∈ c.sent ∧ (⟨src, dst, body⟩ : Envelope).addressedTo id = true := by
  obtain ⟨⟨src', dst, body'⟩, hs, rfl, rfl, had⟩ := ha.delivered src body hr
  exact ⟨dst, hs, had⟩

lemma ClusterStep.logInv (inv : LogInv conf.quorums LogEntry.term h)
    (hs : ClusterStep g conf h h') : LogInv conf.quorums LogEntry.term h' :=
  inv.step (fun _ hc => hc.1) hs

lemma ClusterStep.commitInv (log : LogInv conf.quorums LogEntry.term h)
    (inv : g.replication → CommitInv conf.quorums h) (hs : ClusterStep g conf h h')
    (hg : g.replication) : CommitInv conf.quorums h' :=
  (inv hg).step (fun hc => hc.2 hg) log hs

lemma Sim.put_step (sim : Sim g conf c h) (hs : ClusterStep g conf h h') (hc : Local id h h') (hn : NodeSim g conf h' id n)
    (hm : ∀ m ∈ out, MessageSim g conf h' m) : Sim g conf (c.put id n out) h' :=
  sim.put hc (ClusterStep.logInv sim.logInv hs) (ClusterStep.commitInv sim.logInv sim.commitInv hs) hn hm

/-- A move that the history does not notice. -/
lemma Sim.unnoticed (sim : Sim g conf c h) (hn : NodeSim g conf h id n) (hm : ∀ m ∈ out, MessageSim g conf h m) :
    ∃ h', h.Extends h' ∧ Sim g conf (c.put id n out) h' :=
  ⟨h, .refl h, sim.put (.refl id h) sim.logInv sim.commitInv hn hm⟩

variable (g id) in
lemma local_advance (inv : LogInv conf.quorums LogEntry.term h) (hl : h.term id < t) :
    ClusterStep g conf h { h with term := Function.update h.term id t } ∧
      Local id h { h with term := Function.update h.term id t } := by
  have hs : ClusterStep g conf h { h with term := update h.term id t } := .advance h id t hl
  exact ⟨hs, hs.extends inv, fun q ho => by simp [ho], fun _ _ => rfl, fun _ _ _ => rfl, fun _ _ _ hh => hh, fun _ _ _ _ => rfl⟩

variable (g id) in
lemma local_acknowledge (inv : LogInv conf.quorums LogEntry.term h) {m : Nat}
    (led : h.lead (h.term id) ≠ none) (hw : m ≤ (h.llog (h.term id)).length) (hh : (h.llog (h.term id)).take m <+: h.log id) :
    ∃ h', ClusterStep g conf h h' ∧ Local id h h' ∧ m ≤ h'.ack id (h.term id) ∧
      h'.term id = h.term id ∧ h'.log id = h.log id ∧ h'.vote = h.vote ∧ h'.lead = h.lead ∧
      h'.llog = h.llog ∧ h'.cand = h.cand := by
  have hs : ClusterStep g conf h _ := .acknowledge h id m led hw hh
  exact ⟨_, hs, ⟨hs.extends inv, fun _ _ => rfl, fun _ _ => rfl, fun _ _ _ => rfl,
    fun _ _ _ he => he, fun _ _ _ _ => rfl⟩, by simp [put_same], rfl, rfl, rfl, rfl, rfl, rfl⟩

section

variable (hn : NodeSim g conf h id n)

include hn

/-- A node that neither stands nor leads owes less. -/
lemma NodeSim.resign (hi : role = .follower ∨ role = .preCandidate) (votes : Finset NodeId) (reads : List PendingRead) :
    NodeSim g conf h id { n with role := role, votesGranted := votes, pendingReads := reads } := by
  have hu : role ≠ .candidate ∧ role ≠ .leader := by rcases hi with rfl | rfl <;> simp
  exact { hn with
    voter := by simp [hu]
    candidate := by simp [hu]
    leader := by simp [hu]
    credit := by simp [hu]
    ownCommits := by simp [hu] }

lemma NodeSim.stop (e : RaftError) : NodeSim g conf h id (n.stop e) := by
  unfold RaftNode.stop
  split
  · exact hn
  · exact { hn.resign (.inl rfl) ∅ [] with }

/-- Writing the hard state and consuming the fault script leave the log alone. -/
lemma NodeSim.store (st : HardState) (hh : faults = []) :
    NodeSim g conf h id { n with store := { mem := n.mem.saveHardState st, faults := faults } } :=
  { hn with
    healthy := hh
    plain := ⟨hn.plain.noSnapshot, hn.plain.numbered⟩ }

lemma NodeSim.persist : NodeSim g conf h id n.persist := by
  cases hr : n.stopped with
  | true => simpa [RaftNode.persist, hr] using hn
  | false =>
    rw [RaftNode.persist_of_running ⟨hn.healthy, hr⟩]
    exact hn.store n.state rfl

lemma NodeSim.selfProgress (matched : Nat) : NodeSim g conf h id (n.setSelfProgress matched) :=
  { hn with
    credit := by
      intro hg hr peer p ha hf
      simp only [RaftNode.setSelfProgress, ProgressTracker.get_update] at hf
      obtain ⟨q, hh, rfl⟩ := Option.map_eq_some_iff.mp hf
      rw [if_neg (by rw [RaftNode.id, hn.self]; exact ha)]
      exact hn.credit hg hr peer q ha hh }

lemma NodeSim.probe (hs : ∀ peer, (pg.get peer).map (·.matchIndex) = (n.progress.get peer).map (·.matchIndex)) :
    NodeSim g conf h id { n with progress := pg } :=
  { hn with
    credit := by
      intro hg hr peer p ha hf
      have he := hs peer
      rw [hf] at he
      obtain ⟨q, hh, hi⟩ := Option.map_eq_some_iff.mp he.symm
      exact (le_of_eq hi.symm).trans (hn.credit hg hr peer q ha hh) }

lemma NodeSim.replicate (ha : g.replication → i ≤ h.ack src n.state.currentTerm) :
    NodeSim g conf h id { n with progress := n.progress.markReplicated src i } :=
  { hn with
    credit := by
      intro hg hr peer p hp hf
      simp only [ProgressTracker.markReplicated, ProgressTracker.get_update] at hf
      obtain ⟨q, hh, rfl⟩ := Option.map_eq_some_iff.mp hf
      have old := hn.credit hg hr peer q hp hh
      split
      · rename_i hs
        subst hs
        exact max_le old (ha hg)
      · exact old }

lemma NodeSim.tally (ho : h.vote src n.state.currentTerm = some id) :
    NodeSim g conf h id { n with votesGranted := insert src n.votesGranted } :=
  { hn with
    candidate := by
      intro hr
      obtain ⟨hs, hv, ht⟩ := hn.candidate hr
      refine ⟨hs, hv, fun q hm => ?_⟩
      rcases Finset.mem_insert.mp hm with rfl | old
      · exact ho
      · exact ht q old }

lemma NodeSim.acknowledgeRead (src : NodeId) (read : Nat) : NodeSim g conf h id (n.acknowledgeRead src read) := { hn with }

/-- The position of a stored entry is given by its index. -/
lemma NodeSim.getElem?_of_mem (hs : e ∈ n.mem.entries) : 0 < e.index ∧ n.mem.entries[e.index - 1]? = some e := by
  obtain ⟨i, hf⟩ := List.getElem?_of_mem hs
  have hi := hn.plain.numbered i e hf
  exact ⟨by omega, by rwa [show e.index - 1 = i by omega]⟩

end

lemma NodeSim.pass (sim : Sim g conf c h) (hn : NodeSim g conf h id n)
    (hs : ent ∈ n.mem.entries) (due : ent.index ≤ n.state.commitIndex) :
    NodeSim g conf h id { n with history.passed := n.history.passed ++ [ent] } :=
  { hn with
    passed := by
      intro hg e hm
      rcases mem_append.mp hm with old | new
      · exact hn.passed hg e old
      rw [mem_singleton.mp new]
      obtain ⟨hp, hf⟩ := hn.getElem?_of_mem hs
      obtain ⟨T, k, done, hw, ha⟩ := (hn.settled hg).getElem? (sim.commitInv (g.needs hg)) (i := ent.index - 1) (by omega)
      exact ⟨T, k, done, hp, by omega, ha ▸ hf⟩ }

lemma MessageSim.idle {m : Envelope} (hi : m.body.Idle) : MessageSim g conf h m := by
  obtain ⟨src, dst, body⟩ := m
  cases body with
  | requestVote req =>
    intro hb hn
    rcases hi with pre | hu
    · simp [hb] at pre
    · exact absurd hu hn
  | voteResponse resp =>
    intro hb hg
    rcases hi with pre | hr
    · simp [hb] at pre
    · simp [hg] at hr
  | appendResponse resp =>
    intro _ hs
    simp only [Message.Idle] at hi
    simp [hi] at hs
  | timeoutNow req => trivial
  | appendEntries req => exact hi.elim
  | installSnapshot req => exact hi.elim
  | installSnapshotResponse resp => exact hi.elim

/-- An append request offers the sender's log from wherever it starts. -/
lemma makeAppendEntries_offers (hl : n.mem.Plain) : Offers (n.makeAppendEntries p) n.mem.entries := by
  have hp : n.nextIndexFor p ≠ 0 := by
    simp only [RaftNode.nextIndexFor, hl.firstLogIndex]
    omega
  obtain ⟨k, n0⟩ := Nat.exists_eq_add_one_of_ne_zero hp
  unfold Offers RaftNode.makeAppendEntries
  dsimp only
  rw [n0]
  by_cases hi : k ≤ n.mem.entries.length
  · refine .inl ⟨hi, fun hp => hl.exists_entry hp hi, ?_, ?_⟩
    · rintro rfl
      simp [MemoryStore.termAt]
    split
    · exact nil_prefix
    · rw [hl.entriesFrom]
      exact take_prefix _ _
  refine .inr ⟨by omega, ?_, ?_⟩
  · have := hl.termAt (k - 1)
    rw [show k - 1 + 1 = k by omega, getElem?_eq_none (by omega)] at this
    simpa using this
  · rw [hl.entriesFrom, drop_of_length_le (by omega)]
    simp

lemma MessageSim.appendEntries (sim : Sim g conf c h) (hn : NodeSim g conf h id n) (hl : g.replication → n.role = .leader) :
    MessageSim g conf h { src := id, dst := dst, body := .appendEntries (n.makeAppendEntries p) } := by
  have hs := sim.logInv.logs id
  rw [hn.term, hn.log] at hs
  refine ⟨n.mem.entries, hs, hn.plain.numbered, hn.fixed, makeAppendEntries_offers hn.plain, fun hg => ?_, hn.settled⟩
  obtain ⟨hl, log⟩ := hn.leader (hl hg)
  refine ⟨?_, ?_⟩
  · change h.lead n.state.currentTerm ≠ none
    simp [hl]
  · exact log ▸ prefix_rfl

lemma Sim.newTerm (sim : Sim g conf c h) (hn : NodeSim g conf h id n) (hl : n.state.currentTerm < t) :
    ∃ h', h.Extends h' ∧ Sim g conf (c.put id { n with
        role := .follower, votesGranted := ∅, pendingReads := []
        state.currentTerm := t, state.votedFor := "" } []) h' := by
  have hl : h.term id < t := by rwa [hn.term]
  obtain ⟨hs, hc⟩ := local_advance g id sim.logInv hl
  refine ⟨_, hc.ext, sim.put_step hs hc ?_ (by simp)⟩
  exact { hn with
    term := by simp
    vote := sim.logInv.vote_none hl
    voter := by simp
    candidate := by simp
    leader := by simp
    credit := by simp
    commits := fun hg r hm => record_mono hc.ext (hn.commits hg r hm)
    ownCommits := by simp
    settled := fun hg => (hn.settled hg).mono (sim.commitInv (g.needs hg)) hc.ext
      (by rw [← hn.term]; exact hl.le) prefix_rfl
    passed := fun hg e hm => passed_mono hc.ext (hn.passed hg e hm) }

/-- `last_log_term` is the term of the last entry. -/
lemma Plain.lastLogTerm {st : MemoryStore} (hp : st.Plain) : lastLogTerm st = lastTerm LogEntry.term st.entries := by
  unfold Cnetmod.Raft.lastLogTerm lastTerm
  rw [hp.lastLogIndex]
  cases hs : st.entries.getLast? with
  | none => simp [getLast?_eq_none_iff.mp hs, MemoryStore.termAt]
  | some last =>
    have hn : st.entries ≠ [] := by
      rintro he
      simp [he] at hs
    have ho := length_pos_iff.mpr hn
    have := hp.termAt (st.entries.length - 1)
    rw [show st.entries.length - 1 + 1 = st.entries.length by omega, ← getLast?_eq_getElem?, hs] at this
    simpa using this

lemma Sim.stand (sim : Sim g conf c h) (hn : NodeSim g conf h id n) (hm : n.conf.contains n.id = true) :
    ∃ h', h.Extends h' ∧ Sim g conf (c.put id n.stand (n.post none (.requestVote n.ballotRequest))) h' := by
  have hs : n.id = id := hn.self
  rw [hn.sameConf, hs] at hm
  have ha := ne_empty_of_contains hm
  have hf : h.term id < n.state.currentTerm + 1 := by rw [hn.term]; omega
  have ht : ClusterStep g conf h _ := .stand h id (n.state.currentTerm + 1) hf
  have hc : Local id h _ := ⟨ht.extends sim.logInv, fun q ho => by simp [ho],
    fun _ _ => rfl, fun q t ho => put_ne _ _ (.inl ho), fun _ _ _ hh => hh,
    fun _ _ _ _ => rfl⟩
  have hu := sim.logInv.vote_none hf
  refine ⟨_, hc.ext, sim.put_step ht hc ?_ ?_⟩
  · exact { hn with
      term := by simp [RaftNode.stand]
      vote := by simp [RaftNode.stand, vote, put_same, hs, ha]
      voter := fun _ => hm
      candidate := by
        intro _
        refine ⟨?_, ?_, ?_⟩
        · simp only [RaftNode.stand, put_same]
          rw [hn.log]
          rfl
        · intro he
          -- an earlier leader of the new term would have voted in it
          have hj := (sim.logInv.cands (sim.logInv.elected he).1).2.2.2
          exact absurd (hu.symm.trans hj) (by simp)
        intro q hl
        simp only [RaftNode.stand, Finset.mem_singleton] at hl
        rw [hl, hs]
        exact put_same _ _ _ _
      leader := by simp [RaftNode.stand]
      credit := by simp [RaftNode.stand]
      commits := fun hg r hl => record_mono hc.ext (hn.commits hg r hl)
      ownCommits := by simp [RaftNode.stand]
      settled := fun hg => (hn.settled hg).mono (sim.commitInv (g.needs hg)) hc.ext (Nat.le_succ _) prefix_rfl
      passed := fun hg e hl => passed_mono hc.ext (hn.passed hg e hl) }
  · intro m hb
    rw [RaftNode.post, mem_singleton] at hb
    subst hb
    intro _ _
    refine ⟨rfl, n.mem.entries, ?_, hn.plain.lastLogIndex, Plain.lastLogTerm hn.plain⟩
    rw [← hn.log]
    simp only [RaftNode.ballotRequest, hs, put_same]

variable {log : List LogEntry} {mem : MemoryStore} {req : AppendEntriesRequest}

lemma upToDate_of_logOk (hp : st.Plain) (he : i = log.length) (ha : t = lastTerm LogEntry.term log)
    (hl : isLogAtLeastUpToDate st i t = true) : UpToDate LogEntry.term log st.entries := by
  unfold isLogAtLeastUpToDate at hl
  rw [Plain.lastLogTerm hp, hp.lastLogIndex] at hl
  subst he ha
  dsimp only at hl
  split at hl
  · exact .inl (of_decide_eq_true hl)
  · rename_i hs
    exact .inr ⟨(not_not.mp hs).symm, of_decide_eq_true hl⟩

section

variable (sim : Sim g conf c h)

include sim

lemma Sim.grant (hn : NodeSim g conf h id n) (ha : Admissible g c id n0 inp) {req : RequestVoteRequest}
    (hr : inp = .receive src (.requestVote req)) (hb : req.preVote = false) (hm : n.conf.contains req.candidateId = true)
    (hq : req.term = n.state.currentTerm) (hu : n.state.votedFor = "" ∨ n.state.votedFor = req.candidateId)
    (hw : isLogAtLeastUpToDate n.mem req.lastLogIndex req.lastLogTerm = true) :
    ∃ h', h.Extends h' ∧ Sim g conf (c.put id { n with state.votedFor := req.candidateId }
      (n.post src (.voteResponse { term := n.state.currentTerm, voteGranted := true }))) h' := by
  have he := ne_empty_of_contains hm
  obtain ⟨dst, hx, _⟩ := ha.envelope hr
  obtain ⟨rfl, log, hs, hy, hz⟩ := sim.sent _ hx hb he
  rw [hq] at hs
  have hj : ∀ {h' : RaftHistory}, h'.vote id n.state.currentTerm = some req.candidateId →
      ∀ m ∈ n.post req.candidateId (.voteResponse { term := n.state.currentTerm
                                                    voteGranted := true }),
        MessageSim g conf h' m := by
    intro h' hv m hl
    rw [RaftNode.post, mem_singleton, show n.id = id from hn.self] at hl
    subst hl
    exact fun _ _ => ⟨req.candidateId, rfl, hv⟩
  by_cases hf : n.state.votedFor = ""
  · have ht := hn.term
    have hfr : h.vote id (h.term id) = none := by rw [ht, hn.vote, vote, if_pos hf]
    have hk : ClusterStep g conf h _ := .grant h id req.candidateId log hfr
      (by rw [ht]; exact hs)
      (by rw [hn.log]; exact upToDate_of_logOk hn.plain hy hz hw)
    have hc : Local id h _ := ⟨hk.extends sim.logInv, fun _ _ => rfl, fun _ _ => rfl,
      fun q t ho => put_ne _ _ (.inl ho), fun _ _ _ hh => hh, fun _ _ _ _ => rfl⟩
    have hv : Consensus.put h.vote id (h.term id) (some req.candidateId) id n.state.currentTerm = some req.candidateId := by
      rw [ht]
      exact put_same _ _ _ _
    refine ⟨_, hc.ext, sim.put_step hk hc ?_ (hj hv)⟩
    exact { hn with
      vote := by
        simp only [vote, if_neg he]
        exact hv
      candidate := by
        intro hro
        obtain ⟨hs, hva, hvo⟩ := hn.candidate hro
        exact ⟨hs, hva, fun q hl => hc.ext.vote (hvo q hl)⟩
      commits := fun hg r hl => record_mono hc.ext (hn.commits hg r hl)
      settled := fun hg => (hn.settled hg).mono (sim.commitInv (g.needs hg)) hc.ext (le_rfl) prefix_rfl
      passed := fun hg e hl => passed_mono hc.ext (hn.passed hg e hl) }
  · have hp : n.state.votedFor = req.candidateId := hu.resolve_left hf
    refine sim.unnoticed ?_ (hj ?_)
    · exact { hn with
        vote := by
          rw [hn.vote]
          simp only [vote, hp] }
    · rw [hn.vote, vote, if_neg hf, hp]

lemma Sim.tally (hn : NodeSim g conf h id n) (he : Admissible g c id n0 inp)
    (hr : inp = .receive src (.voteResponse resp)) (hb : resp.preVote = false)
    (hg : resp.voteGranted = true) (hc : resp.term = n.state.currentTerm) :
    NodeSim g conf h id { n with votesGranted := insert src n.votesGranted } := by
  obtain ⟨dst, hs, ha⟩ := he.envelope hr
  obtain ⟨cand, rfl, hv⟩ := sim.sent _ hs hb hg
  simp only [Envelope.addressedTo, decide_eq_true_eq] at ha
  rw [hc, ha] at hv
  exact hn.tally hv

lemma Sim.win (hn : NodeSim g conf h id n) (hc : n.role = .candidate)
    (he : n.conf.hasQuorum n.votesGranted = true) (hf : pg.Fresh n.id) :
    ∃ h', h.Extends h' ∧ Sim g conf (c.put id { n with role := .leader, votesGranted := ∅, progress := pg } []) h' := by
  obtain ⟨hp, hu, hj⟩ := hn.candidate hc
  rw [hn.sameConf, hasQuorum_iff] at he
  have hq : conf.quorums.isQuorum { q | q ∈ n.votesGranted } := he.isQuorum fun q hl => by simpa using hl
  -- another leader of the term would share a voter with this candidate
  have hv : h.lead n.state.currentTerm = none := by
    by_contra led
    obtain ⟨x, hb⟩ := Option.ne_none_iff_exists'.mp led
    obtain ⟨_, Q, hr, hw⟩ := sim.logInv.elected hb
    obtain ⟨q, hm, ht⟩ := conf.quorums.meet hq hr
    have hs : some id = some x := (hj q hm).symm.trans (hw q ht)
    exact hu (hb.trans hs.symm)
  have hk : ClusterStep g conf h _ := .win h id n.state.currentTerm n.mem.entries { q | q ∈ n.votesGranted } hv hp hq hj
  have hh : Local id h _ := ⟨hk.extends sim.logInv, fun _ _ => rfl, fun _ _ => rfl, fun _ _ _ => rfl, fun q t ho hb => by
      by_cases hs : t = n.state.currentTerm
      · subst hs
        simp only [update_self, Option.some.injEq] at hb
        exact absurd hb.symm ho
      · simpa [hs] using hb,
    fun q t ho hb => by
      have hx : t ≠ n.state.currentTerm := by
        rintro rfl
        simp [hv] at hb
      simp [hx]⟩
  refine ⟨_, hh.ext, sim.put_step hk hh ?_ (by simp)⟩
  exact { hn with
    voter := fun _ => hn.voter (.inl hc)
    candidate := by simp
    leader := fun _ => ⟨update_self _ _ _, update_self _ _ _⟩
    credit := by
      intro hg _ peer p ha hy
      rw [hf peer p (by rw [RaftNode.id, hn.self]; exact ha) hy]
      exact Nat.zero_le _
    commits := fun hg r hl => record_mono hh.ext (hn.commits hg r hl)
    ownCommits := by
      intro hg _ r hl now
      have led := (hn.commits hg r hl).committed.led
      rw [now] at led
      exact absurd hv led
    settled := fun hg => (hn.settled hg).mono (sim.commitInv (g.needs hg)) hh.ext (le_rfl) prefix_rfl
    passed := fun hg e hl => passed_mono hh.ext (hn.passed hg e hl) }

lemma Sim.append (hn : NodeSim g conf h id n) (hv : n.role = .leader) (next : ent.index = n.lastLogIndex + 1)
    (hs : ent.term = n.state.currentTerm) (hk : ent.type ≠ .configuration) : ∃ h', h.Extends h' ∧ Sim g conf (c.put id
      { n with store := { mem := n.mem.appendOne ent, faults := n.store.faults.drop 1 } } []) h' := by
  obtain ⟨hj, hu⟩ := hn.leader hv
  have hq : n.lastLogIndex = n.mem.entries.length := hn.plain.lastLogIndex
  have hp := n.mem.appendOne_snapshot ent
  have he : (n.mem.appendOne ent).entries = n.mem.entries ++ [ent] := by
    rw [hn.plain.appendOne_entries (next.trans (by rw [hq])), take_of_length_le (le_rfl)]
  generalize n.mem.appendOne ent = mem at *
  have ht : ClusterStep g conf h _ := .append h id ent (by rw [hn.term]; exact hj)
    (by rw [hn.term, hu, hn.log]) (by rw [hn.term]; exact hs)
  have hc : Local id h _ := ⟨ht.extends sim.logInv, fun _ _ => rfl,
    fun q ho => by simp [ho], fun _ _ _ => rfl, fun _ _ _ hh => hh,
    fun q t ho hm => by
      have hb : t ≠ h.term id := by
        rintro rfl
        rw [hn.term, hj] at hm
        exact ho (Option.some.inj hm).symm
      simp [hb]⟩
  refine ⟨_, hc.ext, sim.put_step ht hc ?_ (by simp)⟩
  exact { hn with
    healthy := by simp [hn.healthy]
    plain := by
      refine ⟨?_, ?_⟩
      · exact (congrArg SnapshotMetadata.lastIncludedIndex hp).trans hn.plain.noSnapshot
      change NumberedFrom 0 mem.entries
      rw [he]
      refine hn.plain.numbered.append ?_
      intro i e hf
      rcases i with _ | i
      · simp only [getElem?_cons_zero, Option.some.injEq] at hf
        rw [← hf, next]
        omega
      · simp at hf
    fixed := by
      intro e hl
      change e ∈ mem.entries at hl
      rw [he] at hl
      rcases mem_append.mp hl with old | new
      · exact hn.fixed e old
      · rw [mem_singleton.mp new]
        exact hk
    log := by
      change update h.log id (h.log id ++ [ent]) id = mem.entries
      rw [he, update_self, hn.log]
    candidate := by simp [hv]
    leader := by
      intro _
      refine ⟨hj, ?_⟩
      change update h.llog (h.term id) (h.log id ++ [ent]) n.state.currentTerm = mem.entries
      rw [he, hn.term, update_self, hn.log]
    commits := fun hg r hl => record_mono hc.ext (hn.commits hg r hl)
    ownCommits := by
      intro hg hr r hl now
      obtain ⟨ha, hi⟩ := hn.ownCommits hg hr r hl now
      refine ⟨ha, hi.trans ?_⟩
      change n.mem.entries.length ≤ mem.entries.length
      rw [he]
      simp
    settled := fun hg => (hn.settled hg).mono (sim.commitInv (g.needs hg)) hc.ext
      (le_rfl) (by
        change n.mem.entries <+: mem.entries
        rw [he]
        exact prefix_append _ _)
    passed := fun hg e hl => passed_mono hc.ext (hn.passed hg e hl) }

/-- The leader commits: it counts its own log as acknowledged first. -/
lemma Sim.commit (hn : NodeSim g conf h id n) (hle : n.role = .leader) (hp : 0 < index) (hr : index ≤ n.mem.entries.length)
    (own : ∃ e, n.mem.entries[index - 1]? = some e ∧ e.term = n.state.currentTerm)
    (hri : g.replication → ∀ r ∈ n.history.commits, r.term = n.state.currentTerm → r.index ≤ index)
    (hq : g.replication → ∃ Q, conf.quorums.isQuorum Q ∧ ∀ q ∈ Q, q ≠ id → index ≤ h.ack q n.state.currentTerm) :
    ∃ h', h.Extends h' ∧ Sim g conf (c.put id (n.setCommitAsLeader index) []) h' := by
  obtain ⟨he, hy⟩ := hn.leader hle
  have led : h.lead n.state.currentTerm ≠ none := by simp [he]
  by_cases hg : g.replication
  · obtain ⟨h', hj, hc, ha, ht, log, hv, hw, hs, hz⟩ := local_acknowledge g id (m := index) sim.logInv
        (by rw [hn.term]; exact led) (by rw [hn.term, hy]; exact hr)
        (by rw [hn.term, hy, hn.log]; exact take_prefix _ _)
    rw [hn.term] at ha
    obtain ⟨e, hf, hk⟩ := own
    have hb : (h.elog n.state.currentTerm).length < index := by
      have := sim.logInv.elog_length_lt led (by rw [hy]; exact hf) hk
      omega
    have done : Committed conf.quorums h' n.state.currentTerm index := by
      obtain ⟨Q, hi, all⟩ := hq hg
      refine ⟨hc.ext.lead_ne led, hc.ext.elog led ▸ hb, Q, hi, ?_⟩
      intro q hm
      by_cases hse : q = id
      · rw [hse]
        exact ha
      · exact (all q hm hse).trans (hc.ext.ack _ _)
    refine ⟨h', hc.ext, sim.put_step hj hc ?_ (by simp)⟩
    exact { hn with
      term := ht.trans hn.term
      log := log.trans hn.log
      vote := by rw [hv]; exact hn.vote
      candidate := by simp [RaftNode.setCommitAsLeader, hle]
      leader := fun _ => by
        rw [hw, hs]
        exact ⟨he, hy⟩
      credit := fun hg hx peer p ho hf => (hn.credit hg hx peer p ho hf).trans (hc.ext.ack _ _)
      commits := by
        intro hg r hl
        rcases mem_append.mp hl with old | new
        · exact record_mono hc.ext (hn.commits hg r old)
        rw [mem_singleton.mp new]
        refine ⟨?_, done, ?_, hr⟩
        · rw [hw]
          exact he
        · rw [hs, hy]
      ownCommits := by
        intro hg hx r hl now
        rcases mem_append.mp hl with old | new
        · exact ⟨hri hg r old now, (hn.ownCommits hg hle r old now).2⟩
        · rw [mem_singleton.mp new]
          exact ⟨le_rfl, hr⟩
      settled := fun _ => .inr ⟨n.state.currentTerm, index, done, le_rfl, le_rfl, by
        rw [hs, hy]
        exact take_prefix _ _⟩
      passed := fun hg e hl => passed_mono hc.ext (hn.passed hg e hl) }
  · refine sim.unnoticed ?_ (by simp)
    exact { hn with
      candidate := by simp [RaftNode.setCommitAsLeader, hle]
      commits := fun hu => absurd hu hg
      ownCommits := fun hu => absurd hu hg
      settled := fun hu => absurd (g.needs hu) hg }

lemma Sim.commitQuorum (hn : NodeSim g conf h id n) (hl : n.role = .leader)
    (hq : configurationHasQuorum n.conf (n.matched i) = true)
    (own : n.mem.termAt i = n.state.currentTerm) (ha : n.state.commitIndex < i) (hr : i ≤ n.lastLogIndex) :
    ∃ h', h.Extends h' ∧ Sim g conf (c.put id (n.setCommitAsLeader i) []) h' := by
  have hr : i ≤ n.mem.entries.length := hn.plain.lastLogIndex ▸ hr
  obtain ⟨e, hf, hs⟩ := hn.plain.exists_entry (show 0 < i by omega) hr
  refine sim.commit hn hl (by omega) hr ⟨e, hf, hs.symm.trans own⟩ ?_ ?_
  · intro hg r hb now
    have := (hn.ownCommits hg hl r hb now).1
    omega
  intro hg
  rw [hn.sameConf, configurationHasQuorum_iff] at hq
  refine ⟨{ q | n.matched i q = true }, hq.isQuorum fun _ hc => hc, ?_⟩
  intro q hc ho
  have hc : n.matched i q = true := hc
  unfold RaftNode.matched at hc
  rw [if_neg (by rw [RaftNode.id, hn.self]; exact ho)] at hc
  split at hc
  · rename_i p hh
    exact (of_decide_eq_true hc : i ≤ p.matchIndex).trans (hn.credit hg hl q p ho hh)
  · simp at hc

lemma Sim.commitAlone (hn : NodeSim g conf h id n) (hu : conf.joint = false) (he : n.role = .leader)
    (ha : n.conf.quorumSize = 1) (hc : n.mem.snapshot.lastIncludedIndex < i →
      ∃ e, n.mem.entries.getLast? = some e ∧ e.index = i ∧ e.term = n.state.currentTerm) (hp : 0 < i) :
    ∃ h', h.Extends h' ∧ Sim g conf (c.put id (n.setCommitAsLeader i) []) h' := by
  obtain ⟨e, hb, hj, hs⟩ := hc (by rw [hn.plain.noSnapshot]; exact hp)
  have hl : i = n.mem.entries.length := by
    have := hn.plain.numbered.getLast hb
    omega
  refine sim.commit hn he hp hl.le ⟨e, ?_, hs⟩ ?_ ?_
  · rw [getLast?_eq_getElem?] at hb
    rw [hl]
    exact hb
  · intro hg r hf now
    rw [hl]
    exact (hn.ownCommits hg he r hf now).2
  intro hg
  -- a lone voter that leads is the leader itself
  have hm := hn.voter (.inr he)
  rw [hn.sameConf, quorumSize_eq_one_iff] at ha
  have only : conf.voters = [id] := by
    have old : conf.oldVoters = [] := by
      change conf.state.oldVoters = []
      simpa [joint, ConfigurationState.joint] using hu
    simp only [Configuration.contains, old, not_mem_nil, decide_false, Bool.or_false, decide_eq_true_eq] at hm
    obtain ⟨v, hv⟩ : ∃ v, conf.voters = [v] := length_eq_one_iff.mp (le_antisymm ha (length_pos_of_mem hm))
    rw [hv] at hm ⊢
    rw [mem_singleton.mp hm]
  refine ⟨{id}, ?_, fun q hm ho => absurd hm ho⟩
  refine majorities_isQuorum_of_countP (p := fun v => decide (v = id)) ?_ (by simp)
  rw [only]
  simp

end

/-- What a request that matches the receiver's log at its previous entry offers:
the sender's log up to its last entry, or nothing past both logs. -/
lemma Offers.shape (inv : LogInv conf.quorums LogEntry.term h) (hc : mem.Plain)
    (he : SoundLog LogEntry.term h bound mem.entries) (ht : SoundLog LogEntry.term h bound' log)
    (ho : Offers req log) (hm : mem.termAt req.prevLogIndex = req.prevLogTerm) : (req.prevLogIndex ≤ mem.entries.length ∧
      mem.entries.take req.prevLogIndex ++ req.entries = log.take (req.prevLogIndex + req.entries.length) ∧
      req.prevLogIndex + req.entries.length ≤ log.length ∧ req.entries <+: log.drop req.prevLogIndex) ∨
    (mem.entries.length < req.prevLogIndex ∧ req.prevLogTerm = 0 ∧ req.entries = []) := by
  rcases ho with ⟨hi, hj, hu, hk⟩ | ⟨hb, hn, none⟩
  · obtain ⟨tl, hg⟩ := hk
    have hr : req.prevLogIndex + req.entries.length ≤ log.length := by
      have := congrArg length hg
      simp at this
      omega
    -- the previous entry, if there is one, is the same in both logs
    have hs : req.prevLogIndex ≤ mem.entries.length ∧ mem.entries.take req.prevLogIndex = log.take req.prevLogIndex := by
      rcases Nat.eq_zero_or_pos req.prevLogIndex with hz | hp
      · simp [hz]
      obtain ⟨theirsPrev, hf, hq⟩ := hj hp
      have hl := hc.termAt (req.prevLogIndex - 1)
      rw [show req.prevLogIndex - 1 + 1 = req.prevLogIndex by omega, hm, hq] at hl
      have hv := inv.tm_pos ht (mem_of_getElem? hf)
      cases own : mem.entries[req.prevLogIndex - 1]? with
      | none =>
        rw [own] at hl
        simp at hl
        omega
      | some minePrev =>
        rw [own] at hl
        have ha := he.traced.matching ht.traced own hf (by simpa using hl.symm)
        rw [show req.prevLogIndex - 1 + 1 = req.prevLogIndex by omega] at ha
        have := (List.getElem?_eq_some_iff.mp own).1
        exact ⟨by omega, ha⟩
    refine .inl ⟨hs.1, ?_, hr, ⟨tl, hg⟩⟩
    rw [hs.2, take_add, ← hg, take_left]
  · refine .inr ⟨?_, hn, none⟩
    by_contra hw
    obtain ⟨e, hf, hx⟩ := hc.exists_entry (show 0 < req.prevLogIndex by omega) (by omega)
    have := inv.tm_pos he (mem_of_getElem? hf)
    omega

/-- The entries a matching request offers agree with stored ones of the same term. -/
lemma offered_agree (hm : SoundLog LogEntry.term h bound mem.entries)
    (hb : SoundLog LogEntry.term h bound' log) (hp : run <+: log.drop k) :
    ∀ i a b, mem.entries[k + i]? = some a → run[i]? = some b → a.term = b.term → a = b := by
  intro i a b left right hs
  have ht := prefix_getElem? hp right
  rw [getElem?_drop] at ht
  have ha := hm.traced.matching hb.traced left ht hs
  have hh : (mem.entries.take (k + i + 1))[k + i]? = some a := by
    rw [getElem?_take, if_pos (by omega), left]
  rw [ha, getElem?_take, if_pos (by omega), ht] at hh
  exact (Option.some.inj hh).symm

/-- After a conflict the log ends where the request does. -/
lemma merge_length_of_conflicts (hp : mem.Plain) (hn : NumberedFrom k run) (hr : k ≤ mem.entries.length)
    (hc : conflicts mem run = true) : (merge mem.entries (mem.entries.take k ++ run)).length = k + run.length := by
  obtain ⟨e, hl, ha⟩ := any_eq_true.mp hc
  obtain ⟨i, ho⟩ := getElem?_of_mem hl
  have hb : (mem.entries.take k ++ run)[k + i]? = some e := by
    rw [getElem?_append_right (by simp), length_take, min_eq_left hr, Nat.add_sub_cancel_left, ho]
  have hk : ¬ mem.entries.take k ++ run <+: mem.entries := by
    intro he
    have hs := hp.termAt (k + i)
    rw [prefix_getElem? he hb, ← hn i e ho] at hs
    simp [hs] at ha
  rw [merge, if_neg hk, length_append, length_take, min_eq_left hr]

/-- The commit index a follower takes over stays within what the request vouches for. -/
lemma followedCommit_le (hp : n0.mem.Plain) (hg : commitGuard n0 (.receive src (.appendEntries req)) = true)
    (hn : NumberedFrom req.prevLogIndex req.entries) (hr : req.prevLogIndex ≤ n0.mem.entries.length)
    (ha : n0.state.commitIndex < req.leaderCommit) : min req.leaderCommit (merge n0.mem.entries
      (n0.mem.entries.take req.prevLogIndex ++ req.entries)).length ≤ req.prevLogIndex + req.entries.length := by
  have hl : n0.lastLogIndex = n0.mem.entries.length := hp.lastLogIndex
  simp only [commitGuard, hl, Bool.or_eq_true, decide_eq_true_eq] at hg
  rcases hg with ((old | hv) | hs) | hc
  · omega
  · omega
  · refine (Nat.min_le_right _ _).trans ?_
    unfold merge
    split
    · exact hs
    · simp [min_eq_left hr]
  · rw [merge_length_of_conflicts hp hn hr hc]
    exact Nat.min_le_right _ _

/-- Taking over a log, and acknowledging it where that means something. -/
lemma local_accept (sim : Sim g conf c h) (id : NodeId) (hf : SoundLog LogEntry.term h (h.term id) cp)
    (ho : g.replication → FromLeader h (h.term id) cp) : ∃ h', Local id h h' ∧ LogInv conf.quorums LogEntry.term h' ∧
      (g.replication → CommitInv conf.quorums h') ∧ (g.replication → cp.length ≤ h'.ack id (h.term id)) ∧
      h'.term id = h.term id ∧ h'.log id = merge (h.log id) cp ∧ h'.vote = h.vote ∧ h'.llog = h.llog := by
  have hs : ClusterStep g conf h _ := .accept h id cp ⟨hf, ho⟩
  have hb : Local id h _ := ⟨hs.extends sim.logInv, fun _ _ => rfl,
    fun q hj => by simp [hj], fun _ _ _ => rfl, fun _ _ _ hh => hh, fun _ _ _ _ => rfl⟩
  have hl := ClusterStep.logInv sim.logInv hs
  have hc := ClusterStep.commitInv sim.logInv sim.commitInv hs
  by_cases hg : g.replication
  · obtain ⟨led, hp⟩ := ho hg
    have hw : (h.llog (h.term id)).take cp.length = cp := (prefix_iff_eq_take.mp hp).symm
    obtain ⟨h', ha, hm, he, ht, log, hv, _, hk, _⟩ := local_acknowledge g id hl led hp.length_le (by
        simp only [update_self]
        rw [hw]
        exact copied_prefix_merge _ _)
    refine ⟨h', hb.trans hm, ClusterStep.logInv hl ha, ClusterStep.commitInv hl hc ha, fun _ => he, ht, ?_, hv, hk⟩
    rw [log]
    simp
  · exact ⟨_, hb, hl, hc, fun hu => absurd hu hg, rfl, by simp, rfl, rfl⟩

lemma Sim.accept (sim : Sim g conf c h) (hn : NodeSim g conf h id n) (ha : Admissible g c id n0 inp)
    (hq : inp = .receive src (.appendEntries req)) (hf : n.role = .follower)
    (hu : req.term = n.state.currentTerm) (hs : n.mem.entries = n0.mem.entries) (hsm : n.mem.snapshot = n0.mem.snapshot)
    (hsc : n.state.commitIndex = n0.state.commitIndex)
    (ran : LogManager.appendFromLeader n.store req.prevLogIndex req.prevLogTerm req.entries =
      (.ok app, st)) (hsu : app.success = true) : ∃ h', h.Extends h' ∧ Sim g conf (c.put id { n with
        store := st
        state.commitIndex := n.followedCommit req.leaderCommit st.mem }
      (n.post src (.appendResponse
        { term := n.state.currentTerm, success := true, matchIndex := app.matchIndex
          readAcks := req.readContexts.map (·.id) }))) h' := by
  obtain ⟨dst, hs2, _⟩ := ha.envelope hq
  obtain ⟨log, ht, hnu, hfi, hof, hfr, hse⟩ := sim.sent _ hs2
  have hk : SoundLog LogEntry.term h n.state.currentTerm n.mem.entries := by
    have := sim.logInv.logs id
    rwa [hn.term, hn.log] at this
  have hsp : ∀ e ∈ n.mem.entries, e.term ≠ 0 := fun e hl => ne_of_gt (sim.logInv.tm_pos hk hl)
  have hm := (LogManager.appendFromLeader_success ran).1.symm.trans hsu
  have hsa : n0.mem.Plain := ⟨hsm ▸ hn.plain.noSnapshot, hs ▸ hn.plain.numbered⟩
  have hh := hof.shape sim.logInv hn.plain hk ht
    (by
      change n.store.mem.termAt req.prevLogIndex = req.prevLogTerm
      simpa [LogManager.matches_] using hm)
  -- everything offered fits onto the log up to the previous entry
  obtain ⟨hft, hr, hag, hce, hco, hci⟩ :
      (req.prevLogIndex ≤ n.mem.entries.length ∨ req.entries = []) ∧
      NumberedFrom req.prevLogIndex req.entries ∧
      (∀ i a b, n.mem.entries[req.prevLogIndex + i]? = some a → req.entries[i]? = some b → a.term = b.term → a = b) ∧
      SoundLog LogEntry.term h n.state.currentTerm (n.mem.entries.take req.prevLogIndex ++ req.entries) ∧
      NumberedFrom 0 (n.mem.entries.take req.prevLogIndex ++ req.entries) ∧
      ∀ e ∈ n.mem.entries.take req.prevLogIndex ++ req.entries, e.type ≠ .configuration := by
    rcases hh with ⟨hx, hj, hro, hp⟩ | ⟨hbe, _, none⟩
    · refine ⟨.inl hx, ?_, offered_agree hk ht hp, ?_⟩
      · have hdr := hnu.drop req.prevLogIndex
        rw [zero_add] at hdr
        exact fun i e hfo => hdr i e (prefix_getElem? hp hfo)
      · rw [hj, ← hu]
        refine ⟨ht.cut ?_, hnu.take _, fun e hl => hfi e (mem_of_mem_take hl)⟩
        exact take_prefix _ _
    · rw [none, append_nil, take_of_length_le (by omega)]
      exact ⟨.inr rfl, .nil _, by simp, hk, hn.plain.numbered, hn.fixed⟩
  obtain ⟨mem, hrn, he, hs1, hsn⟩ := LogManager.appendFromLeader_spec hn.healthy hn.plain hsp hm hr hft hag
  rw [hrn] at ran
  obtain ⟨rfl, rfl⟩ := ran
  change mem.entries = merge n.mem.entries (n.mem.entries.take req.prevLogIndex ++ req.entries)
    at he
  -- under the replication guard the request is not one past both logs
  have hy : g.replication → req.prevLogIndex ≤ n.mem.entries.length ∧
      n.mem.entries.take req.prevLogIndex ++ req.entries = log.take (req.prevLogIndex + req.entries.length) := by
    intro hg
    rcases hh with ⟨hx, hj, _⟩ | ⟨hbe, hno, _⟩
    · exact ⟨hx, hj⟩
    have hb := ha.replication hg
    subst hq
    have hle : n0.lastLogIndex = n.mem.entries.length := by
      rw [hs]
      exact hsa.lastLogIndex
    simp only [replicationGuard, hno, hle, ne_eq, not_true_eq_false, decide_false, Bool.false_or, decide_eq_true_eq] at hb
    omega
  have ho : g.replication → FromLeader h n.state.currentTerm (n.mem.entries.take req.prevLogIndex ++ req.entries) := by
    intro hg
    obtain ⟨led, hp⟩ := hfr hg
    rw [(hy hg).2, ← hu]
    refine ⟨led, .trans ?_ hp⟩
    exact take_prefix _ _
  obtain ⟨h', hc, hlo, hcm, hac, hte, hne, hv, hll⟩ :=
    local_accept sim id (by rw [hn.term]; exact hce) (by rw [hn.term]; exact ho)
  rw [hn.term] at hac
  rw [hn.log, ← he] at hne
  refine ⟨h', hc.ext, sim.put hc hlo hcm ?_ ?_⟩
  · exact { hn with
      healthy := hn.healthy
      plain := by
        refine ⟨hsn ▸ hn.plain.noSnapshot, ?_⟩
        change NumberedFrom 0 mem.entries
        rw [he]
        unfold merge
        split
        · exact hn.plain.numbered
        · exact hco
      fixed := by
        change ∀ e ∈ mem.entries, e.type ≠ .configuration
        rw [he]
        unfold merge
        split
        · exact hn.fixed
        · exact hci
      term := hte.trans hn.term
      log := hne
      vote := by rw [hv]; exact hn.vote
      voter := by simp [hf]
      candidate := by simp [hf]
      leader := by simp [hf]
      credit := by simp [hf]
      commits := fun hg r hl => record_mono hc.ext (hn.commits hg r hl)
      ownCommits := by simp [hf]
      settled := by
        intro hg
        have hz := hy (g.needs hg)
        have inv := sim.commitInv (g.needs hg)
        change Settled conf.quorums h' n.state.currentTerm mem.entries (n.followedCommit req.leaderCommit mem)
        rw [he]
        refine Settled.mono inv hc.ext (le_rfl) prefix_rfl ?_
        unfold RaftNode.followedCommit
        split
        · rename_i hah
          have hla : mem.lastLogIndex = mem.entries.length := by
            refine MemoryStore.Plain.lastLogIndex ⟨hsn ▸ hn.plain.noSnapshot, ?_⟩
            rw [he]
            unfold merge
            split
            · exact hn.plain.numbered
            · exact hco
          have hb := ha.commits hg
          subst hq
          rw [hs] at hz he
          have hw := followedCommit_le hsa hb hr hz.1 (by rw [← hsc]; exact hah)
          rw [hla, he, hs]
          have hj := (hse hg).copy n0.mem.entries (Nat.min_le_left _ _) (req.prevLogIndex + req.entries.length) hw
          rw [← hz.2, hu] at hj
          exact hj
        · exact (hn.settled hg).merge sim.logInv inv (ho (g.needs hg))
      passed := fun hg e hl => passed_mono hc.ext (hn.passed hg e hl) }
  · intro m hl
    rw [RaftNode.post, mem_singleton, show n.id = id from hn.self] at hl
    subst hl
    intro hg _
    refine le_trans ?_ (hac hg)
    simp [min_eq_left (hy hg).1]

end Steps

end Cnetmod.Raft
