import Cnetmod.Raft.Spec.NodeRuns
import Cnetmod.Raft.Spec.Quorums
import Cnetmod.Raft.Spec.Runs
import Cnetmod.Raft.Spec.Saved

/-!
# Votes that survive a crash

`persist` swallows a throwing save: it stops the node and returns.
`handle_request_vote` builds its answer after `step_down` and `persist` without
looking, so it can grant a vote the store does not hold, and a node restarted
over that store is free to vote again in the same term. Where the saves go
through, a granted vote is in the store, and from there on both the node and the
store hold it until they leave its term.
-/
namespace Cnetmod.Raft

open RaftNode Bool Prod
open RaftNode (ballot)

/-- Step `i` of the run answers a binding vote request with a vote. -/
def NodeRun.Grants (run : NodeRun) (i : Nat) (req : RequestVoteRequest) : Prop :=
  ∃ clock src, run.inputs i = some (clock, .receive src (.requestVote req)) ∧
    req.preVote = false ∧
    ({ run.state i with clock := clock }.handleRequestVote req).2.voteGranted = true

/-- When a vote is announced, the store holds its term and its candidate. -/
def NodeRun.VotesSaved (run : NodeRun) : Prop :=
  ∀ i req, run.Grants i req →
    (run.state (i + 1)).mem.state.currentTerm = req.term ∧ (run.state (i + 1)).mem.state.votedFor = req.candidateId

/-- All votes of one term go to one candidate. -/
def NodeRun.VotesSingle (run : NodeRun) : Prop :=
  ∀ i j req other, run.Grants i req → run.Grants j other → req.term = other.term → req.candidateId = other.candidateId

/-- The next `count` writes go through. -/
def RaftStorage.writes (st : RaftStorage) (count : Nat) : Bool :=
  (st.faults.take count).all (·.isNone)

/-- The request is one the node votes for. -/
def votesFor (n : RaftNode) (req : RequestVoteRequest) : Bool :=
  !n.stopped && n.conf.contains n.id && n.conf.contains req.candidateId && !req.preVote &&
    n.state.currentTerm ≤ req.term &&
    (n.state.currentTerm < req.term || n.state.votedFor = "" || n.state.votedFor = req.candidateId) &&
    isLogAtLeastUpToDate n.mem req.lastLogIndex req.lastLogTerm

/-- The saves a vote needs go through: one for the vote, and one before it for a
new term. A vote the store already holds needs none. The term a node stands in has 64 bits:
in the code the term after the last of them is 0, and votes of old terms are granted again. -/
def savesVotes (n : RaftNode) : Input → Bool
  | .receive _ (.requestVote req) =>
    !votesFor n req ||
      if n.state.currentTerm < req.term then n.store.writes 2
      else n.store.writes 1 || ballot n.mem.state = (req.term, req.candidateId)
  | input => (standing n input).all (·.1 < 2 ^ 64)

section Answer

variable {n : RaftNode} {req : RequestVoteRequest}

lemma RaftStorage.writes_two {st : RaftStorage} (hw : st.writes 2 = true) :
    st.writes 1 = true ∧ ∀ mem, RaftStorage.writes { mem := mem, faults := st.faults.drop 1 } 1 = true := by
  unfold RaftStorage.writes at hw ⊢
  match hf : st.faults with
  | [] => simp
  | [fault] => simp_all
  | fault :: next :: tl => simp_all

lemma persist_of_writes (hr : n.stopped = false) (hw : n.store.writes 1 = true) : n.persist = { n with
      store := { mem := n.mem.saveHardState n.state, faults := n.store.faults.drop 1 } } := by
  unfold persist RaftStorage.saveHardState RaftStorage.write
  unfold RaftStorage.writes at hw
  rw [if_neg (by simp [hr])]
  match hf : n.store.faults with
  | [] => simp [mem]
  | none :: tl => simp [mem]
  | some thrown :: tl => simp [hf] at hw

/-- A vote that `castVote` grants, and what became of it in the store. -/
structure Voted (n m : RaftNode) (req : RequestVoteRequest) : Prop where
  unspent : n.state.votedFor = "" ∨ n.state.votedFor = req.candidateId
  upToDate : isLogAtLeastUpToDate n.mem req.lastLogIndex req.lastLogTerm = true
  held : ballot m.state = (n.state.currentTerm, req.candidateId)
  stored : n.stopped = false → n.store.writes 1 = true → ballot m.mem.state = (n.state.currentTerm, req.candidateId)
  kept : ballot n.mem.state = (n.state.currentTerm, req.candidateId) →
    ballot m.mem.state = (n.state.currentTerm, req.candidateId)

lemma castVote_voted (hg : (n.castVote req).2.voteGranted = true) : Voted n (n.castVote req).1 req := by
  unfold castVote at hg ⊢
  dsimp only at hg ⊢
  split at hg
  · rename_i may
    rw [if_pos may]
    refine ⟨may.1, may.2, ?_, fun hr hw => ?_, fun hs => ?_⟩
    · rw [persist_state]
      rfl
    · rw [persist_of_writes]
      · rfl
      · exact hr
      · exact hw
    generalize hv : resetElectionDeadline _ = m
    have mem : m.mem = n.mem := by rw [← hv]; rfl
    have ht : ballot m.state = (n.state.currentTerm, req.candidateId) := by rw [← hv]; rfl
    rcases m.persist_eq with ⟨_, done⟩ | ⟨_, done⟩ | ⟨_, e, done⟩
    · rw [done, mem, hs]
    · rw [done]
      exact ht
    rw [done]
    have hs : ballot m.mem.state = (n.state.currentTerm, req.candidateId) := by rw [mem, hs]
    simpa [RaftNode.mem] using hs
  · simp at hg

/-- What a vote after a move to a later term starts from. -/
structure SteppedDown (n m : RaftNode) (term : Nat) : Prop where
  currentTerm : m.state.currentTerm = term
  upToDate : ∀ index last, isLogAtLeastUpToDate m.mem index last = isLogAtLeastUpToDate n.mem index last
  saved : n.store.writes 2 = true → m.stopped = false ∧ m.store.writes 1 = true

lemma stepDown_steppedDown (hr : n.stopped = false) (t : Nat) : SteppedDown n (n.stepDown t) t := by
  refine ⟨stepDown_currentTerm n t hr, fun i last => ?_, fun hw => ?_⟩
  · unfold stepDown
    rw [if_neg (by simp [hr])]
    unfold isLogAtLeastUpToDate
    rw [persist_lastLogTerm]
    have hs := persist_lastLogIndex
    unfold lastLogIndex at hs
    rw [hs]
    rfl
  obtain ⟨hf, he⟩ := RaftStorage.writes_two hw
  unfold stepDown
  rw [if_neg (by simp [hr]), persist_of_writes (by exact hr) (by exact hf)]
  exact ⟨hr, he _⟩

lemma handleRequestVote_granted (hb : req.preVote = false) (hg : (n.handleRequestVote req).2.voteGranted = true) :
    votesFor n req = true ∧ ballot (n.handleRequestVote req).1.state = (req.term, req.candidateId) ∧
      (∀ src, savesVotes n (.receive src (.requestVote req)) = true →
        ballot (n.handleRequestVote req).1.mem.state = (req.term, req.candidateId)) := by
  unfold handleRequestVote at hg ⊢
  split at hg
  · simp at hg
  rename_i hr
  have hr : n.stopped = false := by simpa using hr
  rw [if_neg (by simp [hr])]
  split at hg
  · simp at hg
  rename_i hm
  have hm : n.conf.contains n.id = true ∧ n.conf.contains req.candidateId = true := by simpa using hm
  simp only [hb, false_eq_true, if_false] at hg
  simp only [hm.1, hm.2, hb, Bool.not_true, Bool.or_self, false_eq_true, if_false]
  split at hg
  · simp at hg
  rename_i hre
  rw [if_neg hre]
  split at hg
  · rename_i hl
    rw [if_pos hl]
    have ho := stepDown_steppedDown hr req.term
    have hv := castVote_voted hg
    have hu := (ho.upToDate _ _).symm.trans hv.upToDate
    refine ⟨?_, ?_, fun src hs => ?_⟩
    · simp [votesFor, hr, hm, hb, hu, hl, Nat.le_of_lt hl]
    · rw [hv.held, ho.currentTerm]
    have hw : n.store.writes 2 = true := by
      simpa [savesVotes, votesFor, hr, hm, hb, hu, hl, Nat.le_of_lt hl] using hs
    rw [hv.stored (ho.saved hw).1 (ho.saved hw).2, ho.currentTerm]
  · rename_i hc
    rw [if_neg hc]
    have hv := castVote_voted hg
    have ha : req.term = n.state.currentTerm := by omega
    have he : votesFor n req = true := by simp [votesFor, hr, hm, hb, hv.upToDate, ha, hv.unspent]
    refine ⟨he, ?_, fun src hs => ?_⟩
    · rw [hv.held, ha]
    simp only [savesVotes, he, ha, lt_irrefl, Bool.not_true, Bool.false_or,
      if_false, Bool.or_eq_true, decide_eq_true_eq] at hs
    rw [ha]
    exact hs.elim (hv.stored hr) hv.kept

end Answer

section Spent

variable {n0 n m : RaftNode} {term : Nat}

/-- A vote for `candidate` in `term` is on record, or the term is over. -/
def Spent (term : Nat) (candidate : NodeId) (s : HardState) : Prop :=
  term < s.currentTerm ∨ ballot s = (term, candidate)

lemma Spent.of_ballot (ha : Spent term cand s) (hs : ballot t = ballot s) : Spent term cand t := by
  rcases ha with hp | hh
  · have term : t.currentTerm = s.currentTerm := congrArg fst hs
    exact .inl (term ▸ hp)
  · exact .inr (hs.trans hh)

lemma Spent.of_later (hs : Spent term cand s) (hl : s.currentTerm < t.currentTerm) : Spent term cand t := by
  rcases hs with hp | hh
  · exact .inl (hp.trans hl)
  · have ha : s.currentTerm = term := congrArg fst hh
    exact .inl (ha ▸ hl)

/-- Whoever was voted for stays the only one. -/
lemma Spent.candidate_eq (ha : Spent term cand s) (he : cand ≠ "") (hc : s.currentTerm ≤ term)
    (hu : s.currentTerm < term ∨ s.votedFor = "" ∨ s.votedFor = o) : cand = o := by
  rcases ha with hp | hh
  · omega
  obtain ⟨hm, hs⟩ := mk.inj hh
  rcases hu with hb | hn | hsa
  · omega
  · exact absurd (hs.symm.trans hn) he
  · exact hs.symm.trans hsa

/-- Both the node and its store have it on record. -/
structure SpentBoth (term : Nat) (candidate : NodeId) (n : RaftNode) : Prop where
  held : Spent term candidate n.state
  stored : Spent term candidate n.mem.state

lemma SpentBoth.of_same (hs : SpentBoth term cand n)
    (ht : ballot m.state = ballot n.state) (mem : ballot m.mem.state = ballot n.mem.state) : SpentBoth term cand m :=
  ⟨hs.held.of_ballot ht, hs.stored.of_ballot mem⟩

lemma SpentBoth.move (hn : cand ≠ "") (hm : Move n0 inp n m out) (hs : SpentBoth term cand n) : SpentBoth term cand m := by
  cases hm with
  | quiet hb => exact hs.of_same (by rw [core_state hb]) (by rw [core_mem hb])
  | persist =>
    refine ⟨by rw [persist_state]; exact hs.held, ?_⟩
    rcases n.persist_eq with ⟨_, done⟩ | ⟨_, done⟩ | ⟨_, error, done⟩
    · rw [done]
      exact hs.stored
    · rw [done]
      exact hs.held
    · rw [done]
      simpa [mem] using hs.stored
  | stop error => exact hs.of_same (by simp) (by simp [mem])
  | newTerm later ha => exact ⟨hs.held.of_later ha, hs.stored⟩
  | stand => exact ⟨hs.held.of_later (Nat.lt_succ_self _), hs.stored⟩
  | grant src req _ _ _ _ hu =>
    refine ⟨?_, hs.stored⟩
    rcases hs.held with hp | hh
    · exact .inl hp
    right
    have hc := Spent.candidate_eq (.inr hh) hn (le_of_eq (congrArg fst hh)) (.inr hu)
    rw [← hc, ← hh]
    exact congrArg (Prod.mk _) (congrArg snd hh).symm
  | append e | adoptLeaving e leave =>
    exact hs.of_same rfl (congrArg ballot (MemoryStore.appendOne_state _ _))
  | accept src req app ps _ _ _ _ _ _ ran | torn src req thrown ps _ _ ran =>
    exact hs.of_same rfl (congrArg ballot (LogManager.appendFromLeader_written ran).state)
  | _ => exact hs.of_same rfl rfl

lemma SpentBoth.restart (hs : SpentBoth term cand n) (mc : Option StateMachine)
    (ck : Int) : SpentBoth term cand (n.restart mc ck) :=
  ⟨hs.stored.of_ballot (n.restart_ballot mc ck), hs.stored⟩

end Spent

lemma NodeRun.spent_later {run : NodeRun} (hn : cand ≠ "") (hs : SpentBoth t cand (run.state i))
    (hl : i ≤ j) : SpentBoth t cand (run.state j) := by
  refine NodeRun.invariant_from (SpentBoth t cand) hs ?_ hl
  intro k ck inp _ _ hh
  exact react_invariant _ (fun hm => SpentBoth.move hn hm) (fun m _ => hh.restart m ck) hh

section Runs

variable {run : NodeRun} {i j : Nat} {req other : RequestVoteRequest}

lemma NodeRun.Grants.votesFor (hr : run.Grants i req) : votesFor (run.state i) req = true := by
  obtain ⟨ck, src, _, hb, hg⟩ := hr
  exact (handleRequestVote_granted hb hg).1

lemma NodeRun.Grants.spent (ha : run.Meets savesVotes) (hc : run.Grants i req) :
    ballot (run.state (i + 1)).state = (req.term, req.candidateId) ∧
      ballot (run.state (i + 1)).mem.state = (req.term, req.candidateId) := by
  obtain ⟨ck, src, hg, hb, hr⟩ := hc
  rw [NodeRun.state_succ hg]
  obtain ⟨_, hh, hs⟩ := handleRequestVote_granted hb hr
  exact ⟨hh, hs src (ha i ck _ hg)⟩

lemma votesFor_named (hv : votesFor n req = true) : req.candidateId ≠ "" := by
  simp only [votesFor, and_eq_true] at hv
  exact Configuration.ne_empty_of_contains hv.1.1.1.1.2

/-- A vote granted after another of its term goes to the same candidate. -/
lemma NodeRun.Grants.later (ha : run.Meets savesVotes) (hf : run.Grants i req)
    (hs : run.Grants j other) (hb : i < j) (hm : req.term = other.term) : req.candidateId = other.candidateId := by
  have hn := votesFor_named hf.votesFor
  obtain ⟨hh, ht⟩ := hf.spent ha
  have hp := run.spent_later hn ⟨.inr hh, .inr ht⟩ hb
  have hv := hs.votesFor
  simp only [Raft.votesFor, and_eq_true, or_eq_true, decide_eq_true_eq, ← hm] at hv
  obtain ⟨⟨⟨_, hc⟩, hu⟩, _⟩ := hv
  exact hp.held.candidate_eq hn hc (or_assoc.mp hu)

end Runs

/-- Where every vote's saves go through, votes are in the store before they are
announced, and no term sees two of them, over any failures and restarts. -/
theorem votes_durable (run : NodeRun) (saves : run.Meets savesVotes) : run.VotesSaved ∧ run.VotesSingle := by
  refine ⟨fun i req hr => Prod.mk.inj (hr.spent saves).2, ?_⟩
  intro i j req o hf hs hc
  rcases Nat.lt_trichotomy i j with hb | rfl | ha
  · exact hf.later saves hs hb hc
  · obtain ⟨_, _, he, _⟩ := hf
    obtain ⟨_, _, hg, _⟩ := hs
    simp only [he, Option.some.injEq, Prod.mk.injEq, Input.receive.injEq, Message.requestVote.injEq] at hg
    rw [hg.2.2]
  · exact (hs.later saves hf ha hc.symm).symm

/-- "b" and, after a restart, "c" ask for a vote in term 1. -/
def twoRequests : List Input :=
  [.receive "b" (.requestVote { term := 1, candidateId := "b" }), .restart none,
   .receive "c" (.requestVote { term := 1, candidateId := "c" })]

def voterRun (faults : List (Option Thrown)) : NodeRun :=
  scriptRun (trioConfig {} "a") faults twoRequests

/-- A fault that hits no vote: the third write never happens. -/
theorem votes_durable_restarted :
    ((voterRun [none, none, some .other]).state 3).mem.state.votedFor = "b" ∧
      (voterRun [none, none, some .other]).VotesSaved ∧
      (voterRun [none, none, some .other]).VotesSingle :=
  ⟨by decide +kernel, votes_durable _ (scriptRun_meets (by decide +kernel))⟩

/-- The save of term 1 throws, the vote goes out all the same, and the restarted
node votes again. -/
theorem unsaved_not_durable : ¬ (voterRun [some .other]).VotesSaved ∧ ¬ (voterRun [some .other]).VotesSingle := by
  have hf : (voterRun [some .other]).Grants 0 { term := 1, candidateId := "b" } :=
    ⟨0, "b", rfl, rfl, by decide +kernel⟩
  have hs : (voterRun [some .other]).Grants 2 { term := 1, candidateId := "c" } :=
    ⟨0, "c", rfl, rfl, by decide +kernel⟩
  refine ⟨fun ha => ?_, fun hb => ?_⟩
  · exact absurd (ha 0 _ hf).1 (by decide +kernel)
  · exact absurd (hb 0 2 _ _ hf hs rfl) (by decide)

end Cnetmod.Raft
