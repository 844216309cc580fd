import Cnetmod.Raft.Spec.NodeRuns
import Cnetmod.Raft.Spec.Quorums
import Cnetmod.Raft.Spec.Runs

/-!
# Commits in joint configurations

`advance_commit_index` moves the commit index on the majorities of the
configuration it counts under. The three other places where a leader moves it
ask for `quorum_size() == 1` instead, which looks at the new voters only and not
at who they are: a leader that is not the one new voter, or that still needs the
old voters, commits by itself.
-/
namespace Cnetmod.Raft

/-- The leader itself and the peers it has recorded up to the committed index. -/
def CommitRecord.credits (r : CommitRecord) (leader id : NodeId) : Bool :=
  if id = leader then true
  else match r.progress.get id with
    | some p => p.matchIndex ≥ r.index
    | none => false

/-- Whenever a leader moved its commit index, both majorities stood behind it. -/
def NodeRun.CommitsBacked (run : NodeRun) : Prop :=
  ∀ i, ∀ r ∈ (run.state i).history.commits, r.conf.Majorities (r.credits run.cfg.id)

/-- Where the code settles for `quorum_size() == 1`, the node is a quorum. -/
def commitsTogether (n : RaftNode) (input : Input) : Bool :=
  match countsUnder n input with
  | some conf => conf.quorumSize ≠ 1 || conf.hasQuorum {n.id}
  | none => true

section

variable {n0 n m : RaftNode} {inp : Input} {out : List Envelope} {id : NodeId}

/-- Commit records keep their majorities, and the node its name. -/
structure Backed (id : NodeId) (n : RaftNode) : Prop where
  named : n.id = id
  commits : ∀ r ∈ n.history.commits, r.conf.Majorities (r.credits id)

lemma Backed.of_same (hb : Backed id n) (cfg : m.cfg = n.cfg) (hc : m.history.commits = n.history.commits) : Backed id m :=
  ⟨(congrArg RaftConfig.id cfg).trans hb.named, hc ▸ hb.commits⟩

lemma Backed.commit (hb : Backed id n) (hq : n.conf.Majorities (n.matched i)) : Backed id (n.setCommitAsLeader i) := by
  refine ⟨hb.named, fun r hm => ?_⟩
  rcases List.mem_append.mp hm with he | now
  · exact hb.commits r he
  rw [List.mem_singleton.mp now]
  refine hq.mono fun p hc => ?_
  rw [← hb.named]
  exact hc

/-- Being a quorum alone is being counted. -/
lemma matched_of_alone {conf : Configuration} (ha : conf.hasQuorum {n.id} = true)
    (i : Nat) : conf.Majorities (n.matched i) := by
  refine ((conf.hasQuorum_iff _).mp ha).mono fun p hs => ?_
  have hs : p = n.id := by simpa using hs
  simp [RaftNode.matched, hs]

lemma Backed.move (ht : commitsTogether n0 inp = true) (hs : n0.id = n.id)
    (hm : Move n0 inp n m out) (hb : Backed id n) : Backed id m := by
  cases hm with
  | quiet hs => exact hb.of_same (RaftNode.core_cfg hs) (RaftNode.core_commits hs)
  | persist => exact hb.of_same (n.persist_cfg) (congrArg NodeHistory.commits n.persist_persisted.history)
  | stop e => exact hb.of_same (by simp) (by simp)
  | commitQuorum i hl hq => exact hb.commit ((configurationHasQuorum_iff _ _).mp hq)
  | commitAlone i hl ha hc =>
    refine hb.commit (matched_of_alone ?_ i)
    have he := ht
    simp only [commitsTogether, hc, ha, hs] at he
    simpa using he
  | _ => exact hb.of_same rfl rfl

end

/-- As long as a leader that needs one vote of the new voters is itself a quorum,
commits follow the joint-consensus rule. -/
theorem joint_commit_backed (run : NodeRun) (together : run.Meets commitsTogether) :
    run.CommitsBacked := by
  intro i
  refine (NodeRun.invariant (Backed run.cfg.id) ⟨rfl, ?_⟩ ?_ ?_ i).commits
  · simp [NodeRun.boot, RaftNode.create]
  · intro k ck inp n m out hg hh hm hb
    exact Backed.move (together k ck inp hg) (hh.named.trans hb.named.symm) hm hb
  · exact fun mc ck hb => ⟨hb.named, hb.commits⟩

/-- "a" is elected with the vote of "b" and enters a joint configuration. -/
def jointInputs (newVoters : List NodeId) : List Input :=
  [.call .beginElection, .receive "b" (.voteResponse { term := 1, voteGranted := true }),
   .call (.changeConfiguration (.enterJoint newVoters))]

def jointRun (newVoters : List NodeId) (rest : List Input) : NodeRun :=
  scriptRun (trioConfig {} "a") [] (jointInputs newVoters ++ rest)

/-- "b" is in both groups, so its acknowledgement commits the change. -/
def sharedRun : NodeRun :=
  jointRun ["a", "b"] [.receive "b" (.appendResponse { term := 1, success := true, matchIndex := 2 })]

theorem joint_commit_backed_shared : (sharedRun.state 4).state.commitIndex = 2 ∧ sharedRun.CommitsBacked :=
  ⟨by decide +kernel, joint_commit_backed _ (scriptRun_meets (by decide +kernel))⟩

/-- With itself as the one new voter "a" commits the change at once, although it
is one of three old voters. -/
theorem alone_not_backed : ¬ (jointRun ["a"] []).CommitsBacked := by
  intro hb
  have hs : ((jointRun ["a"] []).state 3).history.commits.all
      (fun r => configurationHasQuorum r.conf (r.credits "a")) = false := by decide +kernel
  rw [List.all_eq_false] at hs
  obtain ⟨r, hm, hl⟩ := hs
  exact hl ((configurationHasQuorum_iff _ _).mpr (hb 3 r hm))

end Cnetmod.Raft
