import Cnetmod.Raft.Spec.Activities

/-!
# Public methods as sequences of moves

The handlers and calls of `Handlers.lean`, put together from the pieces of
`Activities.lean`.
-/
namespace Cnetmod.Raft

open RaftStorage LogManager ProgressTracker Activity

variable {n0 : RaftNode} {inp : Input} {m : RaftNode}

lemma Move.cfg {n : RaftNode} (hm : Move n0 inp n m out) : m.cfg = n.cfg := by
  cases hm with
  | quiet hs => exact RaftNode.core_cfg hs
  | persist => simp
  | stop => simp
  | _ => rfl

lemma Activity.cfg {n : RaftNode} (ha : Activity n0 inp n m out) : m.cfg = n.cfg := by
  induction ha with
  | done => rfl
  | step hm _ ih => rw [ih, hm.cfg]

namespace RaftNode

variable (n : RaftNode)

/-- Envelopes depend on the sender's id only. -/
lemma post_eq {n m : RaftNode} (hs : m.cfg = n.cfg) (dst : Option NodeId) (body : Message) :
    m.post dst body = n.post dst body := by
  simp [post, RaftNode.id, hs]

/-- Neither what the peers are credited with nor the contact changes when the node stops, saves or steps down. -/
lemma stop_kept (e : RaftError) :
    (n.stop e).progress = n.progress ∧ (n.stop e).lastQuorumContact = n.lastQuorumContact := by
  unfold stop
  split <;> exact ⟨rfl, rfl⟩

lemma persist_kept : n.persist.progress = n.progress ∧ n.persist.lastQuorumContact = n.lastQuorumContact := by
  rcases n.persist_eq with ⟨_, done⟩ | ⟨_, done⟩ | ⟨_, e, done⟩
  · simp [done]
  · simp [done]
  · rw [done]
    exact stop_kept _ e

lemma stepDown_kept (t : Nat) :
    (n.stepDown t).progress = n.progress ∧ (n.stepDown t).lastQuorumContact = n.lastQuorumContact := by
  unfold stepDown
  split
  · exact ⟨rfl, rfl⟩
  · exact persist_kept _

lemma refreshLeaderQuorum_core : n.refreshLeaderQuorum.core = n.core := by
  unfold refreshLeaderQuorum
  split
  · rfl
  · split <;> rfl

variable {t : Nat} {conf : Configuration}

lemma mayApply_of_counts (hc : countsUnder n0 inp = some conf)
    (ha : conf.quorumSize = 1) (i : Nat) : mayApply n0 inp i = true := by
  unfold mayApply
  split
  · simp [countsUnder, standing] at hc
  · simp [countsUnder, standing] at hc
  · simp [countsUnder, standing] at hc
  · simp [hc, ha]

/-- A leader that needs nobody else commits what it has just appended. -/
lemma commitAlone_activity {n : RaftNode} (pre : MemoryStore) (e : LogEntry)
    (hl : n.role = .leader) (hc : countsUnder n0 inp = some n.conf)
    (hw : n.mem = pre.appendOne e) (next : e.index = pre.lastLogIndex + 1) (hs : e.term = n.state.currentTerm) :
    Activity n0 inp n (if n.conf.quorumSize = 1 then n.commitTo e.index else n) [] := by
  split
  · rename_i ha
    refine after (.of_move (.commitAlone n e.index hl ha hc (by omega) ?_)) (persist_applyCommitted_activity ?_ ?_).1
    · intro hb
      rw [hw, MemoryStore.appendOne_snapshot] at hb
      exact ⟨e, by rw [hw]; exact MemoryStore.getLast_appendOne next hb, rfl, hs⟩
    · exact fun i _ => mayApply_of_counts hc ha i
    · exact .inl hl
  · exact .done n

lemma announceLeadership_core (i : Nat) : (n.announceLeadership i).core = (n.setSelfProgress i).core :=
  refreshLeaderQuorum_core _

lemma announceLeadership_activity (i : Nat) (hm : mayRefresh n0 inp n.state.currentTerm) :
    Activity n0 inp n (n.announceLeadership i) [] :=
  Activity.after (.of_move (.selfProgress n i)) (quiet_activity (announceLeadership_core n i) (.inr hm))

lemma becomeLeader_activity (hc : n.stopped = false → n.role = .candidate) (he : n.conf.hasQuorum n.votesGranted = true)
    (hm : mayRefresh n0 inp n.state.currentTerm) (hu : n.stopped = false → countsUnder n0 inp = some n.conf) :
    Activity n0 inp n n.becomeLeader [] := by
  unfold becomeLeader
  split
  · exact .done n
  rename_i hr
  have hr : n.stopped = false := by simpa using hr
  have won : Activity n0 inp n n.takeLeadership [] :=
    after (.of_move (.win n n.takeLeadership.progress (hc hr) he ((reset_fresh _ _ _ _).update_self _))) (quiet_activity rfl)
  have hl : n.takeLeadership.role = .leader := rfl
  have ho : n.takeLeadership.conf = n.conf := rfl
  have hm : mayRefresh n0 inp n.takeLeadership.state.currentTerm := hm
  refine won.after ?_
  generalize n.takeLeadership = n at hl ho hm ⊢
  dsimp only
  unfold appendNoop
  rcases appendNext_activity n0 inp n
    { term := n.state.currentTerm, type := .noOp } hl rfl (by simp) with
    ⟨thrown, store, hf, hac⟩ | ⟨store, hw, hac, hs⟩
  · rw [hf]
    exact hac.after (stop_activity _ _)
  rw [hw]
  have ha := announceLeadership_core { n with store := store } (n.lastLogIndex + 1)
  refine hac.after ((announceLeadership_activity { n with store := store } _ hm).after
    (commitAlone_activity n.mem
      { index := n.lastLogIndex + 1, term := n.state.currentTerm, type := .noOp }
      ?_ ?_ ?_ rfl ?_))
  · exact (core_role ha).trans hl
  · have hb : ({ n with store := store }.announceLeadership (n.lastLogIndex + 1)).conf = n.conf := congrArg Core.conf ha
    rw [hb, ho]
    exact hu hr
  · exact (congrArg (·.store.mem) ha).trans hs
  · exact (congrArg (·.state.currentTerm) ha).symm

lemma persist_lastLogIndex : n.persist.lastLogIndex = n.lastLogIndex := by
  simp [lastLogIndex, MemoryStore.lastLogIndex]

lemma persist_lastLogTerm : lastLogTerm n.persist.mem = lastLogTerm n.mem := by
  rcases n.persist_eq with ⟨_, hs⟩ | ⟨_, hw⟩ | ⟨_, e, hf⟩
  · rw [hs]
  · rw [hw]
    rfl
  · rw [hf]
    simp [mem]

lemma beginPreVote_activity :
    Activity n0 inp n n.beginPreVote.1 (n.beginPreVote.1.post none (.requestVote n.beginPreVote.2)) := by
  unfold beginPreVote
  split
  · exact .of_move (.say n none _ (.inr rfl))
  split
  · exact .of_move (.say n none _ (.inr rfl))
  refine after (.of_move (.canvass n {n.id})) (after (quiet_activity ?_) (.of_move (.say _ none _ (.inl rfl))))
  rfl

/-- Whoever stands and needs nobody else leads at once. -/
lemma countsUnder_of_standing (hs : standing n0 inp = some (t, conf))
    (ha : conf.hasQuorum {n0.id} = true) : countsUnder n0 inp = some conf := by
  have hb : conf = n0.conf := by
    unfold standing at hs
    split at hs
    · split at hs <;> simp_all
    · split at hs <;> simp_all
    · simp at hs
  subst hb
  unfold countsUnder
  split
  · simp [standing] at hs
  · simp [standing] at hs
  · simp [standing] at hs
  · simp [hs, ha]

lemma lt_of_standing (hs : standing n0 inp = some (t, conf)) : n0.state.currentTerm < t := by
  unfold standing at hs
  split at hs
  · split at hs
    · cases hs
    · cases hs
      omega
  · split at hs
    · cases hs
    next hn =>
      simp only [Bool.or_eq_true, not_or, decide_eq_true_eq] at hn
      cases hs
      omega
  · cases hs

lemma beginElection_activity (same : n.cfg = n0.cfg)
    (stands : n.stopped = false → n.conf.contains n.id = true → standing n0 inp = some (n.state.currentTerm + 1, n.conf)) :
    Activity n0 inp n n.beginElection.1 (n.beginElection.1.post none (.requestVote n.beginElection.2)) := by
  unfold beginElection
  split
  · exact .of_move (.say n none _ (.inr rfl))
  rename_i running
  split
  · exact .of_move (.say n none _ (.inr rfl))
  rename_i member
  have member : n.conf.contains n.id = true := by simpa using member
  have stands := stands (by simpa using running) member
  have stood : Activity n0 inp n n.stand.persist (n.post none (.requestVote n.ballotRequest)) :=
    then_ (.of_move (.stand n member stands)) (persist_activity n.stand)
  have request : ({ term := n.stand.persist.state.currentTerm
                    candidateId := n.stand.persist.id
                    lastLogIndex := n.stand.persist.lastLogIndex
                    lastLogTerm := lastLogTerm n.stand.persist.mem } : RequestVoteRequest) =
      n.ballotRequest := by
    rw [persist_lastLogIndex, persist_lastLogTerm, persist_id, persist_state]
    rfl
  dsimp only
  rw [request]
  split
  · rename_i elected
    have wins : Activity n0 inp _ n.stand.persist.becomeLeader [] := becomeLeader_activity _
      (fun running => (n.stand.persist_persisted.running running).1) elected
      (.inr (.inr (by rw [persist_state]; exact lt_of_standing stands))) fun running => by
        rw [(n.stand.persist_persisted.running running).2.1, persist_conf] at elected
        rw [persist_conf]
        exact countsUnder_of_standing stands (by rw [id, ← same]; exact elected)
    rw [post_eq (wins.cfg.trans (n.stand.persist_cfg : _ = n.cfg))]
    exact stood.then_ wins
  · rw [post_eq (n.stand.persist_cfg : _ = n.cfg)]
    exact stood

lemma castVote_activity {req : RequestVoteRequest} (hr : inp = .receive src (.requestVote req)) (hb : req.preVote = false)
    (hm : n.conf.contains req.candidateId = true) (hc : req.term = n.state.currentTerm) :
    Activity n0 inp n (n.castVote req).1 ((n.castVote req).1.post src (.voteResponse (n.castVote req).2)) := by
  unfold castVote
  dsimp only
  split
  · rename_i may
    have hg : Activity n0 inp n _ _ := .of_move (.grant n src req hr hb hm hc may.1 may.2)
    rw [persist_state, post_eq (persist_cfg _)]
    refine hg.then_ (after (quiet_activity ?_) (persist_activity _))
    rfl
  · exact .of_move (.say n src _ (.inr rfl))

lemma stepDown_conf (t : Nat) : (n.stepDown t).conf = n.conf := by
  unfold stepDown
  split
  · rfl
  · simp [resetElectionDeadline]

lemma stepDown_currentTerm (t : Nat) (hr : n.stopped = false) : (n.stepDown t).state.currentTerm = t := by
  unfold stepDown
  simp only [hr, Bool.false_eq_true, if_false, resetElectionDeadline, persist_state]
  split
  · rfl
  · rename_i hs
    exact (not_not.mp hs).symm

lemma stepDown_role (t : Nat) (hr : n.stopped = false) : (n.stepDown t).role = .follower := by
  unfold stepDown
  simp only [hr, Bool.false_eq_true, if_false]
  rcases (persist_persisted _).role with hs | hf
  · rw [hs]
    rfl
  · exact hf

lemma handleRequestVote_activity {req : RequestVoteRequest} (hr : inp = .receive src (.requestVote req)) :
    Activity n0 inp n (n.handleRequestVote req).1
      ((n.handleRequestVote req).1.post src (.voteResponse (n.handleRequestVote req).2)) := by
  unfold handleRequestVote
  split
  · exact .of_move (.say n src _ (.inr rfl))
  rename_i hru
  split
  · exact .of_move (.say n src _ (.inr rfl))
  have hm : n.conf.contains req.candidateId = true := by
    cases hk : n.conf.contains req.candidateId <;> simp_all
  split
  · exact .of_move (.say n src _ (.inl rfl))
  rename_i hb
  have hb : req.preVote = false := by simpa using hb
  split
  · exact .of_move (.say n src _ (.inr rfl))
  split
  · exact (stepDown_activity n (by omega)).after (castVote_activity _ hr hb
      (by rwa [stepDown_conf])
      (stepDown_currentTerm n req.term (by simpa using hru)).symm)
  · exact castVote_activity n hr hb hm (by omega)

lemma handleVoteResponse_activity {resp : RequestVoteResponse}
    (hr : inp = .receive src (.voteResponse resp)) (hs : n.core = n0.core) :
    Activity n0 inp n (n.handleVoteResponse src resp).1 [] := by
  unfold handleVoteResponse
  split
  · exact .done n
  rename_i hru
  split
  · exact stepDown_activity n (by omega)
  split
  · split
    · exact .done n
    rename_i hp
    have hp : n.role = .preCandidate := by
      by_contra ho
      exact hp (.inl ho)
    refine after (.of_move (.canvass n (insert src n.votesGranted))) (quiet_activity ?_)
    simp [core, hp]
  rename_i hb
  split
  · exact .done n
  rename_i hc
  have hc : n.role = .candidate ∧ resp.term = n.state.currentTerm := by simpa [not_or] using hc
  dsimp only
  obtain ⟨m, hh, ha, hf, hn⟩ : ∃ m : RaftNode, (if resp.voteGranted = true then
        { n with votesGranted := insert src n.votesGranted }
      else { n with votesRejected := insert src n.votesRejected }) = m ∧
      Activity n0 inp n m [] ∧ m.role = .candidate ∧ m.conf = n0.conf := by
    refine ⟨_, rfl, ?_⟩
    split
    · rename_i hg
      exact ⟨.of_move (.tally n src resp hr (by simpa using hb) hg hc.1 hc.2), hc.1, (core_conf hs : n.conf = _)⟩
    · exact ⟨quiet_activity rfl, hc.1, (core_conf hs : n.conf = _)⟩
  rw [hh]
  refine ha.after ?_
  split
  · rename_i he
    refine becomeLeader_activity m (fun _ => hf) he (.inr (.inl ?_)) fun _ => ?_
    · simp [← core_role hs, hc.1]
    subst hr
    have hv : m.votesGranted = if resp.voteGranted then insert src n0.votesGranted
        else n0.votesGranted := by
      rw [← hh, ← core_votesGranted hs]
      split <;> rfl
    rw [hv, hn] at he
    simp [countsUnder, ← core_stopped hs, ← core_role hs, ← core_state hs, hru, hc.1, hc.2, hb, he, hn]
  · exact .done m

lemma persist_leaderId : n.persist.leaderId = n.leaderId := by
  unfold persist
  split
  · rfl
  split
  · rfl
  · unfold stop
    split <;> rfl

lemma stepDown_leaderId (t : Nat) : (n.stepDown t).leaderId = n.leaderId := by
  unfold stepDown
  split
  · rfl
  · exact persist_leaderId _

lemma handleTimeoutNow_activity {req : TimeoutNowRequest}
    (hb : inp = .receive src (.timeoutNow req)) (hs : n.core = n0.core)
    (ha : n.leaderId = n0.leaderId) :
    Activity n0 inp n (n.handleTimeoutNow req).1
      (match n.handleTimeoutNow req with
        | (m, some vote) => m.post none (.requestVote vote)
        | (_, none) => []) := by
  unfold handleTimeoutNow
  split
  · exact .done n
  rename_i he
  obtain ⟨hr, hg, hn⟩ : n.stopped = false ∧ n.conf.contains n.id = true ∧ n.conf.contains req.leaderId = true := by
    simpa [not_or] using he
  split
  · exact .done n
  dsimp only
  obtain ⟨m, hj, hm, hc, ht, hh⟩ : ∃ m : RaftNode, (if req.term > n.state.currentTerm then n.stepDown req.term else n) = m ∧
      Activity n0 inp n m [] ∧ m.conf = n0.conf ∧
      m.state.currentTerm = req.term ∧ m.leaderId = n0.leaderId := by
    refine ⟨_, rfl, ?_⟩
    split
    · exact ⟨stepDown_activity n (by omega), (n.stepDown_conf _).trans (core_conf hs),
        stepDown_currentTerm n _ hr, (n.stepDown_leaderId _).trans ha⟩
    · exact ⟨.done n, core_conf hs, by omega, ha⟩
  have hl : n0.conf.contains n0.id = true := (congrArg (fun c : Core => c.conf.contains c.cfg.id) hs).symm.trans hg
  rw [hj]
  split
  · exact hm
  rename_i hf
  subst hb
  refine hm.after (beginElection_activity m (hm.cfg.trans (core_cfg hs)) fun _ _ => ?_)
  have hu : n0.stopped = false := (core_stopped hs).symm.trans hr
  have hk : n0.conf.contains req.leaderId = true := (congrArg (·.conf.contains req.leaderId) hs).symm.trans hn
  have ho : ¬ req.term < n0.state.currentTerm := by
    rwa [show n0.state.currentTerm = n.state.currentTerm from congrArg (·.state.currentTerm) hs.symm]
  rw [hh] at hf
  have hp : (decide (n0.leaderId ≠ "") &&
      decide (n0.leaderId ≠ req.leaderId)) = false := by
    simpa using hf
  simp only [standing, hu, hl, hk, ho, hp, ht, hc]
  rfl

lemma follow_activity (ld : NodeId) (le : n.state.currentTerm ≤ t) : Activity n0 inp n (n.follow t ld) [] := by
  refine after (m := if t > n.state.currentTerm ∨ n.role ≠ .follower
    then n.stepDown t else n) ?_ (quiet_activity rfl)
  split
  · exact stepDown_activity n le
  · exact .done n

lemma follow_role (t : Nat) (ld : NodeId) (hr : n.stopped = false) : (n.follow t ld).role = .follower := by
  unfold follow
  split
  · exact stepDown_role n t hr
  · rename_i hs
    exact not_not.mp fun ho => hs (.inr ho)

lemma follow_currentTerm (ld : NodeId) (hr : n.stopped = false) (le : n.state.currentTerm ≤ t) :
    (n.follow t ld).state.currentTerm = t := by
  unfold follow
  dsimp only [resetElectionDeadline]
  split
  · exact stepDown_currentTerm n t hr
  rename_i hs
  omega

variable (n0 inp) in
lemma followCommit_activity (lc : Nat) (hf : n.role = .follower)
    (may : n.state.commitIndex < lc → ∀ i ≤ lc, mayApply n0 inp i = true) : Activity n0 inp
        { n with state.commitIndex := n.followedCommit lc n.mem }
        (n.followCommit lc) [] ∧
      Ongoing { n with state.commitIndex := n.followedCommit lc n.mem } (n.followCommit lc) := by
  unfold followCommit followedCommit
  split
  · rename_i ha
    exact persist_applyCommitted_activity (fun i hr => may ha i (hr.trans (Nat.min_le_left _ _))) (.inr hf)
  · exact ⟨.done n, .refl n⟩

/-- Following a leader touches neither the log nor the commit index. -/
structure SameLog (n m : RaftNode) : Prop where
  entries : m.mem.entries = n.mem.entries
  snapshot : m.mem.snapshot = n.mem.snapshot
  commitIndex : m.state.commitIndex = n.state.commitIndex

lemma follow_sameLog (t : Nat) (ld : NodeId) : SameLog n (n.follow t ld) := by
  have ho : SameLog n (n.stepDown t) := by
    unfold stepDown
    split
    · exact ⟨rfl, rfl, rfl⟩
    refine ⟨(persist_entries _).trans rfl, (persist_snapshot _).trans rfl, ?_⟩
    rw [persist_state]
    split <;> rfl
  unfold follow
  split
  · exact ⟨ho.entries, ho.snapshot, ho.commitIndex⟩
  · exact ⟨rfl, rfl, rfl⟩

lemma acceptEntries_activity (he : inp = .receive src (.appendEntries req)) (hf : n.role = .follower)
    (hc : req.term = n.state.currentTerm) (hs : SameLog n0 n)
    (may : n.state.commitIndex < req.leaderCommit → ∀ index ≤ req.leaderCommit, mayApply n0 inp index = true) :
    Activity n0 inp n (n.acceptEntries req).1 ((n.acceptEntries req).1.post src (.appendResponse (n.acceptEntries req).2)) := by
  unfold acceptEntries
  split
  · rename_i thrown store ran
    exact after (.of_move (.torn n src req thrown store he hf ran)) ((stop_activity _ _).after (.of_move (.say _ src _ rfl)))
  rename_i appended store ran
  dsimp only
  split
  · rename_i hr
    have hr : appended.success = false := by simpa using hr
    rw [(appendFromLeader_success ran).2 hr]
    exact .of_move (.say n src _ rfl)
  rename_i ha
  have ha : appended.success = true := by simpa using ha
  have hg : Activity n0 inp n _ _ := .of_move (.accept n src req appended store he
    hf hc hs.entries hs.snapshot hs.commitIndex ran ha)
  obtain ⟨hb, ho⟩ := followCommit_activity n0 inp { n with store := store } req.leaderCommit hf may
  have ht : (followCommit { n with store := store } req.leaderCommit).state.currentTerm =
    n.state.currentTerm := ho.currentTerm
  have cfg : (followCommit { n with store := store } req.leaderCommit).cfg = n.cfg := ho.cfg
  generalize followCommit { n with store := store } req.leaderCommit = m at hb ht cfg ⊢
  have hp : ∀ (acked : List LogEntry) (body : Message), post { m with history.acked := acked } src body = n.post src body :=
    fun _ _ => post_eq cfg _ _
  rw [hp, ht]
  exact hg.then_ (hb.then_ (quiet_activity rfl))

lemma handleAppendEntries_activity (he : inp = .receive src (.appendEntries req)) (hs : n.core = n0.core) :
    Activity n0 inp n (n.handleAppendEntries req).1
      ((n.handleAppendEntries req).1.post src (.appendResponse (n.handleAppendEntries req).2)) := by
  unfold handleAppendEntries
  split
  · exact .of_move (.say n src _ rfl)
  rename_i hr
  have hr : n.stopped = false := by simpa using hr
  split
  · exact .of_move (.say n src _ rfl)
  split
  · exact .of_move (.say n src _ rfl)
  rename_i hra hkn
  have hk := follow_sameLog n req.term req.leaderId
  have hc := hk.commitIndex.trans (congrArg (·.state.commitIndex) hs)
  refine (follow_activity n req.leaderId (by omega)).after
    (acceptEntries_activity _ he (follow_role n _ _ hr) (follow_currentTerm n _ hr (by omega)).symm ?_ fun ha i hw => ?_)
  · exact ⟨hk.entries.trans (congrArg (·.store.mem.entries) hs), hk.snapshot.trans (congrArg (·.store.mem.snapshot) hs), hc⟩
  subst he
  have hu : n0.stopped = false := (core_stopped hs).symm.trans hr
  have ht : n0.state.currentTerm = n.state.currentTerm := congrArg (·.state.currentTerm) hs.symm
  have ho : n0.conf = n.conf := core_conf hs.symm
  rw [hc] at ha
  simp only [mayApply, hu, ht, ho, Bool.and_eq_true, decide_eq_true_eq]
  exact ⟨⟨⟨⟨rfl, by omega⟩, by simpa using hkn⟩, ha⟩, hw⟩

lemma commitCandidate_spec (hf : n.commitCandidate last = some i) : n.state.commitIndex < i ∧ i ≤ last ∧
      configurationHasQuorum n.conf (n.matched i) = true ∧ n.mem.termAt i = n.state.currentTerm := by
  induction last with
  | zero => simp [commitCandidate] at hf
  | succ last ih =>
    unfold commitCandidate at hf
    split at hf
    · rename_i hab
      split at hf
      · rename_i ha
        cases hf
        exact ⟨hab, le_rfl, ha⟩
      · obtain ⟨low, hh, hr⟩ := ih hf
        exact ⟨low, by omega, hr⟩
    · simp at hf

lemma advanceCommitIndex_activity (hl : n.role = .leader) (may : ∀ i, mayApply n0 inp i = true) :
    Activity n0 inp n n.advanceCommitIndex [] := by
  unfold advanceCommitIndex
  split
  · exact .done n
  split
  · rename_i i hf
    obtain ⟨ha, hr, hq, own⟩ := commitCandidate_spec n hf
    refine after (.of_move (.commitQuorum n i hl hq own ha hr)) (persist_applyCommitted_activity (fun i _ => may i) ?_).1
    exact .inl hl
  · exact .done n

variable (n0) in
lemma acknowledgeReads_activity (hr : inp = .receive src (.appendResponse resp)) (hs : resp.success = true)
    (ids : List Nat) (ha : ∀ id ∈ ids, id ∈ resp.readAcks) {n : RaftNode}
    (hl : n.role = .leader) (hc : resp.term = n.state.currentTerm) (hu : n.conf = n0.conf) :
    Activity n0 inp n (ids.foldl (fun n id => n.acknowledgeRead src id) n) [] ∧
      (ids.foldl (fun n id => n.acknowledgeRead src id) n).role = .leader := by
  induction ids generalizing n with
  | nil => exact ⟨.done n, hl⟩
  | cons id tl ih =>
    have ht := ih (fun x hm => ha x (by simp [hm])) (n := n.acknowledgeRead src id) hl hc hu
    exact ⟨after (.of_move (.readAck n src resp id hr hs hl hc (ha id (by simp)) hu)) ht.1, ht.2⟩

lemma refreshLeaderQuorum_role : n.refreshLeaderQuorum.role = n.role :=
  core_role n.refreshLeaderQuorum_core

lemma handleAppendEntriesResponse_activity (hr : inp = .receive src (.appendResponse resp)) (hb : n.core = n0.core) :
    Activity n0 inp n (n.handleAppendEntriesResponse src resp).1 [] := by
  unfold handleAppendEntriesResponse
  split
  · exact .done n
  rename_i hru
  split
  · exact stepDown_activity n (by omega)
  split
  · exact .done n
  rename_i hre
  obtain ⟨hl, hc⟩ : n.role = .leader ∧ resp.term = n.state.currentTerm := by simpa [not_or] using hre
  split
  · rename_i hs
    have he : Activity n0 inp n _ [] := .of_move (.replicate n src resp hr hs hl hc)
    have ha := acknowledgeReads_activity n0 hr hs resp.readAcks
      (fun _ hm => hm)
      (n := { n with progress := n.progress.markReplicated src resp.matchIndex })
      hl hc (core_conf hb : n.conf = _)
    refine he.after (ha.1.after ((quiet_activity (refreshLeaderQuorum_core _) (.inr (.inl (by rw [hr]; rfl)))).after
      (advanceCommitIndex_activity _ ((refreshLeaderQuorum_role _).trans ha.2) fun i => ?_)))
    subst hr
    simp [mayApply, ← core_stopped hb, ← core_role hb, ← core_state hb, hru, hl, hc, hs]
  · refine .of_move (.probe n _ fun peer => ?_)
    exact update_matchIndex _ _ _ fun p => rfl

lemma handleInstallSnapshotResponse_activity {resp : InstallSnapshotResponse}
    (hr : inp = .receive src (.installSnapshotResponse resp)) (hs : n.core = n0.core) :
    Activity n0 inp n (n.handleInstallSnapshotResponse src resp).1 [] := by
  unfold handleInstallSnapshotResponse
  split
  · exact .done n
  rename_i hru
  split
  · exact stepDown_activity n (by omega)
  split
  · exact .done n
  rename_i hre
  obtain ⟨hl, hc, hu⟩ : n.role = .leader ∧ resp.term = n.state.currentTerm ∧ resp.success = true := by
    simpa [not_or] using hre
  split
  · exact .done n
  rename_i p _
  split
  · exact .done n
  refine after (.of_move (.replicateSnapshot n src resp p.pendingSnapshot
    hr hl)) ((quiet_activity (refreshLeaderQuorum_core _) (.inr (.inl (by rw [hr]; rfl)))).after
      (advanceCommitIndex_activity _ ((refreshLeaderQuorum_role _).trans hl) fun i => ?_))
  subst hr
  simp [mayApply, ← core_stopped hs, ← core_role hs, ← core_state hs, hru, hl, hc, hu]

lemma markAppendSent_activity (peer : NodeId) (lastIndex : Nat) : Activity n0 inp n (n.markAppendSent peer lastIndex) [] := by
  refine .of_move (.probe n _ fun o => ?_)
  refine update_matchIndex _ _ _ fun p => ?_
  dsimp only
  split <;> rfl

lemma markSnapshotSent_activity (peer : NodeId) : Activity n0 inp n (n.markSnapshotSent peer) [] := by
  unfold markSnapshotSent
  dsimp only
  split
  · refine .of_move (.probe n _ fun o => ?_)
    exact update_matchIndex _ _ _ fun p => rfl
  · exact .done n

lemma appendCommand_activity (hb : inp = .call (.appendCommand cmd)) (hs : n.core = n0.core) :
    Activity n0 inp n (n.appendCommand cmd).1 [] := by
  unfold appendCommand
  split
  · exact .done n
  rename_i hr
  split
  · exact .done n
  rename_i hl
  have hl : n.role = .leader := not_not.mp hl
  unfold appendAsLeader
  rcases appendNext_activity n0 inp n
    { term := n.state.currentTerm, type := .command, command := cmd } hl rfl
    (by simp) with ⟨thrown, store, hf, ha⟩ | ⟨store, hw, ha, hst⟩
  · rw [hf]
    exact ha.after (stop_activity _ _)
  rw [hw]
  refine ha.after (commitAlone_activity
    n.mem
    { index := n.lastLogIndex + 1, term := n.state.currentTerm, type := .command
      command := cmd } hl ?_ hst rfl rfl)
  subst hb
  simp [countsUnder, ← core_stopped hs, ← core_role hs, ← core_conf hs, hr, hl]

lemma countUnder_activity (i : Nat) (ha : inp = .call (.changeConfiguration change))
    (hc : change.apply n0.conf = .ok next) (hl : n.role = .leader) : Activity n0 inp n (n.countUnder next i) [] := by
  refine after (.of_move (.reconfigure n change next
    (reset next.allMembers (n.lastLogIndex + 1) n.cfg.options.maxInflightAppend)
    ha hc hl (reset_fresh _ _ _ _))) ?_
  refine after (quiet_activity ?_) (.of_move (.selfProgress _ i))
  rfl

lemma changeConfiguration_activity (hb : inp = .call (.changeConfiguration change)) (he : n.core = n0.core)
    (hs : n.configurationPending = n0.configurationPending) : Activity n0 inp n (n.changeConfiguration change).1 [] := by
  have hn : n.conf = n0.conf := core_conf he
  unfold changeConfiguration
  split
  · exact .done n
  rename_i hr
  split
  · exact .done n
  rename_i hp
  split
  · exact .done n
  rename_i next hc
  unfold appendConfiguration
  split
  · exact .done n
  split
  · exact .done n
  rename_i hl
  have hl : n.role = .leader := not_not.mp hl
  rw [hn] at hc
  unfold LogManager.appendConfiguration
  rcases appendNext_activity n0 inp n
    { term := n.state.currentTerm, type := .configuration, configuration := next.state }
    hl rfl (fun _ => ⟨change, next, hb, hc, rfl⟩) with
    ⟨thrown, store, hf, ha⟩ | ⟨store, hw, ha, hst⟩
  · rw [hf]
    exact ha.after (stop_activity _ _)
  rw [hw]
  refine ha.after ((countUnder_activity { n with store := store }
    (n.lastLogIndex + 1) hb hc hl).after
    (commitAlone_activity n.mem
      { index := n.lastLogIndex + 1, term := n.state.currentTerm
        type := .configuration, configuration := next.state } hl ?_ hst rfl rfl))
  subst hb
  have ho : countsUnder n0 (.call (.changeConfiguration change)) = some next := by
    simp [countsUnder, ← core_stopped he, ← core_role he, ← hs, hr, hl, hp, hc, Except.toOption]
  exact ho

lemma restoreSnapshot_eq (st : RaftStorage) (md : SnapshotMetadata) :
    (∃ result : AppendResult, result.success = false ∧ LogManager.restoreSnapshot st md = (.ok result, st)) ∨
    (∃ thrown, LogManager.restoreSnapshot st md = (.error thrown, { st with faults := st.faults.drop 1 })) ∨
    (md.valid = true ∧ ∃ result : AppendResult, result.success = true ∧
      restoreSnapshot st md = (.ok result, { mem := st.mem.resetToSnapshot md, faults := st.faults.drop 1 })) := by
  unfold restoreSnapshot
  split
  · exact .inl ⟨_, rfl, rfl⟩
  rename_i hv
  unfold resetToSnapshot
  rcases st.write_eq (·.resetToSnapshot md) with ⟨thrown, hf⟩ | hw
  · rw [hf]
    exact .inr (.inl ⟨thrown, rfl⟩)
  · rw [hw]
    exact .inr (.inr ⟨by simpa using hv, _, rfl, rfl⟩)

lemma handleInstallSnapshot_activity {req : InstallSnapshotRequest} (he : inp = .receive src (.installSnapshot req))
    (hs : n.core = n0.core) : Activity n0 inp n (n.handleInstallSnapshot req).1
      ((n.handleInstallSnapshot req).1.post src (.installSnapshotResponse (n.handleInstallSnapshot req).2)) := by
  have ha : ∀ (m : RaftNode) (resp : InstallSnapshotResponse), Activity n0 inp m m
      (m.post src (.installSnapshotResponse resp)) :=
    fun m resp => .of_move (.answerSnapshot m src req resp he)
  unfold handleInstallSnapshot
  dsimp only
  split
  · exact ha n _
  rename_i hr
  have hr : n.stopped = false := by simpa using hr
  split
  · exact ha n _
  split
  · exact ha n _
  rename_i hra hk
  have hh : heedsSnapshot n0 req = true := by
    simp only [heedsSnapshot, ← core_stopped hs, ← core_state hs, ← core_conf hs,
      hr, Bool.not_false, Bool.true_and, Bool.and_eq_true, decide_eq_true_eq]
    exact ⟨by omega, by simpa [or_iff_not_imp_left] using hk⟩
  have hf : Activity n0 inp n (n.follow req.term req.leaderId) [] := follow_activity n req.leaderId (by omega)
  have hb := follow_role n req.term req.leaderId hr
  have ht : (n.follow req.term req.leaderId).state.currentTerm = req.term := follow_currentTerm n req.leaderId hr (by omega)
  refine hf.after ?_
  generalize n.follow req.term req.leaderId = n at hb ht ⊢
  generalize ho : (if req.uri ≠ "" then { req.metadata with uri := req.uri }
    else req.metadata) = metadata
  split
  · rename_i error fsm _
    exact after (quiet_activity (m := { n with fsm := fsm }) rfl) ((stop_activity _ error).after (ha _ _))
  rename_i fsm _
  refine after (quiet_activity (m := { n with fsm := fsm }) rfl) ?_
  rcases restoreSnapshot_eq n.store metadata with
    ⟨result, hrf, ran⟩ | ⟨thrown, ran⟩ | ⟨hv, result, hrs, ran⟩
  · simp only [ran, hrf]
    exact ha _ _
  · simp only [ran]
    exact after (.of_move (.fault _)) ((stop_activity _ _).after (ha _ _))
  simp only [ran, hrs, Bool.not_true, Bool.false_eq_true, if_false]
  exact after (.of_move (Move.restore { n with fsm := fsm } src req metadata
    he ho.symm hv hh hb ht.symm))
    ((persist_activity _).after (ha _ _))

lemma createSnapshot_activity (uri : String)
    (asked : inp = .call (.createSnapshot uri) ∨ ∃ policy, inp = .call (.maybeCreateSnapshot policy)) (same : n.core = n0.core)
    (saves : n.stopped = false → n.state.commitIndex ≠ 0 → savesSnapshot n0 inp = true) :
    Activity n0 inp n (n.createSnapshot uri).1 [] := by
  unfold createSnapshot
  split
  · exact .done n
  rename_i running
  split
  · exact .done n
  rename_i some
  extract_lets metadata failed
  have made : metadata = { lastIncludedIndex := n.state.commitIndex
                           lastIncludedTerm := n.mem.termAt n.state.commitIndex
                           uri := uri, configuration := n.conf.state } := rfl
  clear_value metadata
  split
  · rename_i error fsm _
    exact after (quiet_activity (m := { n with fsm := fsm }) rfl) (stop_activity _ error)
  rename_i fsm _
  refine after (quiet_activity (m := { n with fsm := fsm }) rfl) ?_
  unfold saveSnapshotMetadata
  dsimp only
  rcases n.store.write_eq (·.saveSnapshotMetadata metadata) with ⟨thrown, threw⟩ | wrote
  · rw [threw]
    exact after (.of_move (.fault _)) (stop_activity _ _)
  rw [wrote]
  refine after (.of_move (.saveMetadata { n with fsm := fsm } uri metadata asked
    (saves (by simpa using running) some) made some (core_conf same))) ?_
  unfold compactPrefix truncatePrefix
  dsimp only
  rcases write_eq
    { mem := n.mem.saveSnapshotMetadata metadata, faults := n.store.faults.drop 1 }
    (·.truncatePrefix (metadata.lastIncludedIndex + 1)) with ⟨thrown, threw⟩ | compacted
  · rw [show n.store.mem = n.mem from rfl, threw]
    exact after (.of_move (.fault _)) (stop_activity _ _)
  · rw [show n.store.mem = n.mem from rfl, compacted]
    exact .of_move (.compact _ (asked.imp_left fun call => ⟨uri, call⟩))

lemma maybeCreateSnapshot_activity (ha : inp = .call (.maybeCreateSnapshot p)) (hs : n.core = n0.core) :
    Activity n0 inp n (n.maybeCreateSnapshot p).1 [] := by
  unfold maybeCreateSnapshot
  split
  · exact .done n
  split
  · exact .done n
  split
  · exact .done n
  rename_i hw _ hn
  dsimp only
  split
  · exact .done n
  rename_i he
  split
  · exact .done n
  have hb (hu : n.stopped = false) (some : n.state.commitIndex ≠ 0) : savesSnapshot n0 inp = true := by
    subst ha
    have hn : n.mem.snapshot.lastIncludedIndex < n.state.commitIndex := by
      simpa [MemoryStore.loadSnapshotMetadata] using hn
    simp [savesSnapshot, ← core_stopped hs, ← core_state hs, ← core_mem hs, hu, some, hw, hn, not_lt.mp he]
  have hc := createSnapshot_activity n (n.snapshotUri p) (.inr ⟨p, ha⟩) hs hb
  split
  · rename_i hr
    rwa [hr] at hc
  rename_i hr
  rw [hr] at hc
  exact hc.after (quiet_activity rfl)

lemma readIndex_activity {req : ReadIndexRequest} (ha : inp = .call (.readIndex req)) (hs : n.core = n0.core) :
    Activity n0 inp n (n.readIndex req).1 [] := by
  unfold readIndex
  split
  · exact .done n
  split
  · exact .done n
  rename_i hl
  refine .of_move (.readIndex n req ha (not_not.mp hl) _ rfl (fun hr => ?_) (core_conf hs))
  simp only [Bool.or_eq_true, Bool.and_eq_true] at hr
  exact hr.imp_right fun he => he.1.1

lemma consumeReadIndex_activity (id : Nat) : Activity n0 inp n (n.consumeReadIndex id).1 [] := by
  unfold consumeReadIndex
  split
  · exact .done n
  split
  · exact .done n
  · exact .of_move (.dropReads n _ List.filter_sublist)

lemma checkLeaderQuorum_activity (timeout : Int) : Activity n0 inp n (n.checkLeaderQuorum timeout).1 [] := by
  unfold checkLeaderQuorum
  split
  · exact .done n
  split
  · exact .done n
  split
  · exact .done n
  · exact stepDown_activity n (le_rfl)

lemma keepTransfer_activity (hk : m = { n with pendingLeaderTransfer := pending }) : Activity n0 inp n m [] :=
  hk ▸ quiet_activity rfl

lemma transferLeader_eq (tgt : NodeId) :
    ∃ pending, (n.invoke (.transferLeader tgt)).1 = { n with pendingLeaderTransfer := pending } := by
  have hk : ∃ pending, (n.transferLeader tgt).1 = { n with pendingLeaderTransfer := pending } := by
    unfold transferLeader
    split
    · exact ⟨_, rfl⟩
    split
    · exact ⟨_, rfl⟩
    split
    · exact ⟨_, rfl⟩
    split
    · exact ⟨_, rfl⟩
    · split <;> exact ⟨_, rfl⟩
  unfold invoke
  dsimp only
  split <;> rename_i hr <;> rwa [hr] at hk

lemma transferLeader_activity (tgt : NodeId) :
    Activity n0 inp n (n.invoke (.transferLeader tgt)).1 (n.invoke (.transferLeader tgt)).2 := by
  obtain ⟨pending, hk⟩ := n.transferLeader_eq tgt
  unfold invoke at hk ⊢
  dsimp only at hk ⊢
  split at hk
  · rename_i m request _
    exact (keepTransfer_activity n hk).after (.of_move (.say m tgt _ trivial))
  · exact keepTransfer_activity n hk

lemma takePendingLeaderTransfer_eq (p : NodeId) :
    ∃ pending, (n.invoke (.takePendingLeaderTransfer p)).1 = { n with pendingLeaderTransfer := pending } := by
  have hk : ∃ pending, (n.takePendingLeaderTransfer p).1 = { n with pendingLeaderTransfer := pending } := by
    unfold takePendingLeaderTransfer
    split
    · exact ⟨_, rfl⟩
    · split <;> exact ⟨_, rfl⟩
  unfold invoke
  dsimp only
  split <;> rename_i hr <;> rwa [hr] at hk

lemma takePendingLeaderTransfer_activity (p : NodeId) :
    Activity n0 inp n (n.invoke (.takePendingLeaderTransfer p)).1 (n.invoke (.takePendingLeaderTransfer p)).2 := by
  obtain ⟨pending, hk⟩ := n.takePendingLeaderTransfer_eq p
  unfold invoke at hk ⊢
  dsimp only at hk ⊢
  split at hk
  · rename_i m request _
    exact (keepTransfer_activity n hk).after (.of_move (.say m p _ trivial))
  · exact keepTransfer_activity n hk

lemma invoke_activity (ha : inp = .call call) (hs : n.core = n0.core)
    (hb : n.configurationPending = n0.configurationPending) : Activity n0 inp n (n.invoke call).1 (n.invoke call).2 := by
  cases call with
  | beginPreVote => exact beginPreVote_activity n
  | beginElection =>
    subst ha
    have he : n.conf.contains n.id = true → n0.conf.contains n0.id = true :=
      fun hm => (congrArg (fun c : Core => c.conf.contains c.cfg.id) hs).symm.trans hm
    refine beginElection_activity n (core_cfg hs) fun hr hm => ?_
    have hu : n0.stopped = false := (core_stopped hs).symm.trans hr
    have ht : n0.state.currentTerm = n.state.currentTerm := congrArg (·.state.currentTerm) hs.symm
    rw [standing, hu, he hm, ht, show n.conf = n0.conf from core_conf hs]
    rfl
  | makeAppendEntries peer => exact .of_move (.sendAppend n peer ha hs)
  | markAppendSent peer lastIndex => exact markAppendSent_activity n peer lastIndex
  | makeInstallSnapshot peer => exact .of_move (.sendSnapshot n peer ha)
  | markSnapshotSent peer => exact markSnapshotSent_activity n peer
  | appendCommand cmd => exact appendCommand_activity n ha hs
  | changeConfiguration change => exact changeConfiguration_activity n ha hs hb
  | transferLeader tgt => exact transferLeader_activity n tgt
  | takePendingLeaderTransfer peer => exact takePendingLeaderTransfer_activity n peer
  | createSnapshot uri =>
    refine createSnapshot_activity n uri (.inl ha) hs fun hr some => ?_
    simp [ha, savesSnapshot, ← core_stopped hs, ← core_state hs, hr, some]
  | maybeCreateSnapshot p => exact maybeCreateSnapshot_activity n ha hs
  | readIndex req => exact readIndex_activity n ha hs
  | consumeReadIndex id => exact consumeReadIndex_activity n id
  | expireReadIndexes timeout => exact .of_move (.dropReads n _ List.filter_sublist)
  | checkLeaderQuorum timeout => exact checkLeaderQuorum_activity n timeout
  | stop e => exact stop_activity n e

lemma dispatch_activity (hr : inp = .receive src body) (hs : n.core = n0.core) (hb : n.leaderId = n0.leaderId) :
    Activity n0 inp n (n.dispatch src body).1 (n.dispatch src body).2 := by
  cases body with
  | requestVote req => exact handleRequestVote_activity n hr
  | voteResponse resp => exact handleVoteResponse_activity n hr hs
  | timeoutNow req =>
    have ha := handleTimeoutNow_activity n hr hs hb
    unfold dispatch
    dsimp only
    split
    · rename_i m vote hre
      simpa only [hre] using ha
    · rename_i m hre
      simpa only [hre] using ha
  | appendEntries req => exact handleAppendEntries_activity n hr hs
  | appendResponse resp => exact handleAppendEntriesResponse_activity n hr hs
  | installSnapshot req => exact handleInstallSnapshot_activity n hr hs
  | installSnapshotResponse resp => exact handleInstallSnapshotResponse_activity n hr hs

/-- Whatever a node is asked, short of a restart, it answers with moves. -/
lemma react_activity (ck : Int) (hr : ∀ mc, inp ≠ .restart mc) : Activity n inp n (n.react ck inp).1 (n.react ck inp).2 := by
  cases inp with
  | call call =>
    exact after (quiet_activity (m := { n with clock := ck }) rfl) (invoke_activity _ rfl rfl rfl)
  | receive src body =>
    exact after (quiet_activity (m := { n with clock := ck }) rfl) (dispatch_activity _ rfl rfl rfl)
  | restart mc => exact absurd rfl (hr mc)

end RaftNode

lemma Input.restart_or_running (inp : Input) : (∃ m, inp = .restart m) ∨ ∀ m, inp ≠ .restart m := by
  cases inp with
  | restart m => exact .inl ⟨m, rfl⟩
  | _ => exact .inr (by simp)

/-- What the moves of a call and a restart keep, a reaction keeps. -/
lemma RaftNode.react_invariant (kept : RaftNode → Prop) {n : RaftNode}
    (hm : ∀ {k m out}, Move n inp k m out → kept k → kept m) (hr : ∀ mc, inp = .restart mc → kept (n.restart mc ck))
    (hh : kept n) : kept (n.react ck inp).1 := by
  rcases inp.restart_or_running with ⟨mc, rfl⟩ | hru
  · exact hr mc rfl
  · exact (n.react_activity ck hru).invariant kept hm hh

end Cnetmod.Raft
