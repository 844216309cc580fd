import Cnetmod.Raft.Spec.NodeRuns
import Cnetmod.Raft.Spec.Quorums
import Cnetmod.Raft.Spec.Reads

/-!
# The leader's lease

`recent_active` is set by a response and by a send, and nothing clears it. A response
moves `last_quorum_contact_` if the flags of a quorum are set, so the clock moves with
every response once they are. Where no flag is older than that clock, it moves with the
answers of a quorum only, and a leader that hears less runs out of its lease.
-/
namespace Cnetmod.Raft

namespace RaftNode

/-- Who is heard with the input: the sender of a response of the leader's term. -/
def hears (n : RaftNode) (input : Input) : List NodeId :=
  (input.response.filter fun r => !n.stopped && n.role = .leader && r.2 = n.state.currentTerm).toList.map (·.1)

/-- The leader and the peers form a quorum. -/
def quorumWith (n : RaftNode) (peers : List NodeId) : Bool :=
  configurationHasQuorum n.conf fun id => id = n.id || id ∈ peers

/-- Whichever voter is marked active is among the peers. -/
def flagsWithin (n : RaftNode) (peers : List NodeId) : Bool :=
  (n.conf.voters ++ n.conf.oldVoters).all fun id => !n.recentlyActive id || id = n.id || id ∈ peers

/-- The leadership begins with the step from `n` to `m`. -/
def becomesLeader (n m : RaftNode) : Bool :=
  m.role = .leader && (n.role ≠ .leader || m.state.currentTerm ≠ n.state.currentTerm)

lemma leads_before {n m : RaftNode} (leads : m.role = .leader) (goesOn : n.becomesLeader m = false) :
    n.role = .leader ∧ m.state.currentTerm = n.state.currentTerm := by
  simpa [becomesLeader, leads] using goesOn

section

variable (n : RaftNode)

lemma adoptConfiguration_contact (entry : LogEntry) :
    (n.adoptConfiguration entry).lastQuorumContact = n.lastQuorumContact := by
  unfold adoptConfiguration
  dsimp only
  split
  · exact (stepDown_kept _ _).2
  split
  · split
    · rfl
    split
    · rfl
    · exact (stop_kept _ _).2
  · rfl

lemma applyOne_contact (entry : LogEntry) :
    (n.applyOne entry).1.lastQuorumContact = n.lastQuorumContact := by
  unfold applyOne
  split
  · rfl
  dsimp only
  split
  · exact (stop_kept _ _).2
  refine (persist_kept _).2.trans ?_
  split
  · exact adoptConfiguration_contact _ _
  · rfl

/-- Applying entries moves neither the clock of the lease nor the term. -/
lemma applyCommitted_kept : n.applyCommitted.lastQuorumContact = n.lastQuorumContact ∧
    n.applyCommitted.state.currentTerm = n.state.currentTerm := by
  unfold applyCommitted
  split
  · exact ⟨rfl, rfl⟩
  refine applyLoop_rule _ (P := fun m => m.lastQuorumContact = n.lastQuorumContact ∧
    m.state.currentTerm = n.state.currentTerm) (fun _ kept => kept) (fun m entry kept _ _ => ?_) _ ⟨rfl, rfl⟩
  have once : (m.applyOne entry).1.lastQuorumContact = n.lastQuorumContact ∧
      (m.applyOne entry).1.state.currentTerm = n.state.currentTerm :=
    ⟨(applyOne_contact m entry).trans kept.1, (applyOne_ongoing m entry).currentTerm.trans kept.2⟩
  exact ⟨once, fun _ => once⟩

@[simp] lemma commitTo_contact (index : Nat) :
    (n.commitTo index).lastQuorumContact = n.lastQuorumContact :=
  (applyCommitted_kept _).1.trans (persist_kept _).2

@[simp] lemma advanceCommitIndex_contact :
    n.advanceCommitIndex.lastQuorumContact = n.lastQuorumContact := by
  unfold advanceCommitIndex
  split
  · rfl
  · split <;> simp

/-- Short of a response, no move of a leader notes a contact in the term it leads in. -/
lemma move_contact {start n m : RaftNode} (other : input.response = none) (leads : start.role = .leader)
    (move : Move start input n m out)
    (kept : n.lastQuorumContact = start.lastQuorumContact ∨ start.state.currentTerm < n.state.currentTerm) :
    m.lastQuorumContact = start.lastQuorumContact ∨ start.state.currentTerm < m.state.currentTerm := by
  have later := move.currentTerm_le
  have same : m.lastQuorumContact = n.lastQuorumContact ∨ start.state.currentTerm < n.state.currentTerm := by
    cases move with
    | quiet _ contact =>
      refine contact.imp_right fun may => ?_
      rcases may with response | follows | newer
      · simp [other] at response
      · exact absurd leads follows
      · exact newer
    | persist => exact .inl n.persist_kept.2
    | stop error => exact .inl (n.stop_kept error).2
    | _ => exact .inl rfl
  omega

/-- A step through which the node leads in one term moves the clock only with a response. -/
lemma react_contact {input : Input} {clock : Int} (other : input.response = none)
    (leads : (n.react clock input).1.role = .leader)
    (goesOn : n.becomesLeader (n.react clock input).1 = false) :
    (n.react clock input).1.lastQuorumContact = n.lastQuorumContact := by
  obtain ⟨before, same⟩ := leads_before leads goesOn
  cases input with
  | restart machine => cases leads
  | _ =>
    have kept := (n.react_activity clock (by simp)).invariant _ (move_contact other before) (.inl rfl)
    omega

end

variable {n : RaftNode}

lemma recentlyActive_markReplicated {id : NodeId}
    (active : { n with progress := n.progress.markReplicated src index, pendingReads := reads }.recentlyActive id = true) :
    id = src ∨ n.recentlyActive id = true := by
  unfold recentlyActive at active ⊢
  split at active
  next self => exact .inr (if_pos self)
  next peer =>
    have peer : id ≠ n.id := peer
    rw [if_neg peer]
    by_cases sender : id = src
    · exact .inl sender
    refine .inr ?_
    rw [ProgressTracker.markReplicated, ProgressTracker.get_update] at active
    cases found : n.progress.get id with
    | none => simp [found] at active
    | some p => simpa [found, sender] using active

/-- A response does not move the clock while no quorum is heard and no flag is older. -/
lemma refresh_contact (flags : n.flagsWithin peers = true) (heard : src ∈ peers)
    (none : n.quorumWith peers = false) :
    { n with progress := n.progress.markReplicated src index
             pendingReads := reads }.refreshLeaderQuorum.lastQuorumContact = n.lastQuorumContact := by
  unfold refreshLeaderQuorum
  split
  · rfl
  split
  next quorum =>
    rw [configurationHasQuorum_iff] at quorum
    have within (id : NodeId) (voter : id ∈ n.conf.voters ++ n.conf.oldVoters)
        (active : { n with progress := n.progress.markReplicated src index
                           pendingReads := reads }.recentlyActive id = true) :
        (id = n.id || id ∈ peers) = true := by
      rcases recentlyActive_markReplicated active with rfl | old
      · simp [heard]
      · simpa [old] using List.all_eq_true.mp flags id voter
    have answered : n.conf.Majorities fun id => id = n.id || id ∈ peers :=
      ⟨quorum.new.trans (List.countP_mono_left fun id voter => within id (List.mem_append_left _ voter)),
        fun joint => (quorum.old joint).trans
          (List.countP_mono_left fun id voter => within id (List.mem_append_right _ voter))⟩
    rw [quorumWith, (configurationHasQuorum_iff _ _).mpr answered] at none
    cases none
  · rfl

variable (n) in
lemma acknowledgeReads_eq (peer : NodeId) (ids : List Nat) :
    ∃ reads, ids.foldl (fun n id => n.acknowledgeRead peer id) n = { n with pendingReads := reads } := by
  induction ids generalizing n with
  | nil => exact ⟨n.pendingReads, rfl⟩
  | cons id ids ih =>
    obtain ⟨reads, read⟩ := ih (n.acknowledgeRead peer id)
    exact ⟨reads, read⟩

lemma response_contact {input : Input} (answers : input.response.isSome = true) (clock : Int)
    (flags : n.flagsWithin (peers ++ n.hears input) = true)
    (none : n.quorumWith (peers ++ n.hears input) = false) :
    (n.react clock input).1.lastQuorumContact = n.lastQuorumContact := by
  have heard (src : NodeId) (term : Nat) (sent : input.response = some (src, term)) (running : n.stopped ≠ true)
      (leads : n.role = .leader) (current : term = n.state.currentTerm) : src ∈ peers ++ n.hears input :=
    List.mem_append_right _ (by simp [hears, sent, running, leads, current])
  match input, answers with
  | .receive src (.appendResponse resp), _ =>
    change (handleAppendEntriesResponse { n with clock := clock } src resp).1.lastQuorumContact = _
    unfold handleAppendEntriesResponse
    split
    · rfl
    rename_i running
    split
    · exact (stepDown_kept _ _).2
    split
    · rfl
    rename_i leads
    rw [not_or, not_not, not_not] at leads
    split
    · obtain ⟨reads, acknowledged⟩ := acknowledgeReads_eq
        { n with clock := clock, progress := n.progress.markReplicated src resp.matchIndex } src resp.readAcks
      dsimp only
      rw [acknowledged, advanceCommitIndex_contact]
      exact refresh_contact (n := { n with clock := clock }) flags
        (heard src resp.term rfl running leads.1 leads.2) none
    · rfl
  | .receive src (.installSnapshotResponse resp), _ =>
    change (handleInstallSnapshotResponse { n with clock := clock } src resp).1.lastQuorumContact = _
    unfold handleInstallSnapshotResponse
    split
    · rfl
    rename_i running
    split
    · exact (stepDown_kept _ _).2
    split
    · rfl
    rename_i leads
    rw [not_or, not_or, not_not, not_not] at leads
    split
    · rfl
    split
    · rfl
    · exact (advanceCommitIndex_contact _).trans (refresh_contact (n := { n with clock := clock })
        flags (heard src resp.term rfl running leads.1 leads.2.1) none)

end RaftNode

namespace NodeRun

variable (run : NodeRun)

/-- Who has answered since the clock moved last or the leadership began. -/
def heard : Nat → List NodeId
  | 0 => []
  | i + 1 =>
    let n := run.state i
    let m := run.state (i + 1)
    if m.lastQuorumContact ≠ n.lastQuorumContact || n.becomesLeader m then []
    else heard i ++ ((run.inputs i).map fun taken => n.hears taken.2).getD []

/-- With the response that comes in at `i`, a quorum has answered. -/
def quorumHeard (i : Nat) (input : Input) : Bool :=
  (run.state i).quorumWith (run.heard i ++ (run.state i).hears input)

/-- A response that completes no quorum finds no voter marked active but those that have answered since. -/
def FlagsFresh : Prop :=
  ∀ i, ∀ taken ∈ run.inputs i, taken.2.response.isSome = true → run.quorumHeard i taken.2 = false →
    (run.state i).flagsWithin (run.heard i ++ (run.state i).hears taken.2) = true

/-- From `i` to `j` no leadership begins and no response completes a quorum. -/
def Unheard (i j : Nat) : Prop :=
  ∀ k, i ≤ k → k < j → (run.state k).becomesLeader (run.state (k + 1)) = false ∧
    ∀ taken ∈ run.inputs k, taken.2.response.isSome = true → run.quorumHeard k taken.2 = false

variable {run}

lemma contact_succ (fresh : run.FlagsFresh)
    (goesOn : (run.state k).becomesLeader (run.state (k + 1)) = false)
    (unheard : ∀ taken ∈ run.inputs k, taken.2.response.isSome = true → run.quorumHeard k taken.2 = false)
    (leads : (run.state (k + 1)).role = .leader) :
    (run.state k).role = .leader ∧ (run.state (k + 1)).lastQuorumContact = (run.state k).lastQuorumContact := by
  refine ⟨(RaftNode.leads_before leads goesOn).1, ?_⟩
  cases given : run.inputs k with
  | none => rw [state_rest given]
  | some taken =>
    rw [state_succ given] at goesOn leads ⊢
    cases answers : taken.2.response with
    | none => exact RaftNode.react_contact _ answers leads goesOn
    | some _ =>
      have response : taken.2.response.isSome = true := by rw [answers]; rfl
      have none := unheard taken given response
      exact RaftNode.response_contact response _ (fresh k taken given response none) none

/-- While no quorum is heard, a leader's lease is measured from the same contact. -/
lemma contact_stays (fresh : run.FlagsFresh) (later : i ≤ j) (unheard : run.Unheard i j)
    (leads : (run.state j).role = .leader) : (run.state j).lastQuorumContact = (run.state i).lastQuorumContact := by
  induction later with
  | refl => rfl
  | step later ih =>
    obtain ⟨goesOn, none⟩ := unheard _ later (Nat.lt_succ_self _)
    obtain ⟨before, same⟩ := contact_succ fresh goesOn none leads
    exact same.trans (ih (fun k le lt => unheard k le (lt.trans (Nat.lt_succ_self _))) before)

/-- "a" of five nodes is elected by "b" and "c", and `rest` follows, one input each second. -/
def electedRun (rest : List Input) : NodeRun where
  cfg := { id := "a", peers := ["b", "c", "d", "e"] }
  faults := []
  machine := none
  clock := 0
  inputs := fun i => ([.call .beginElection, .receive "b" (.voteResponse { term := 1, voteGranted := true }),
    .receive "c" (.voteResponse { term := 1, voteGranted := true })] ++ rest)[i]?.map fun input => ((i : Int) + 1, input)

def answer (peer : NodeId) : Input := .receive peer (.appendResponse { term := 1, success := true, matchIndex := 1 })

lemma electedRun_forall {P : Nat → Int × Input → Prop} (rest : List Input)
    (all : ∀ i < rest.length + 3, ∀ taken ∈ (electedRun rest).inputs i, P i taken) (i : Nat) :
    ∀ taken ∈ (electedRun rest).inputs i, P i taken := by
  intro taken given
  refine all i ?_ taken given
  obtain ⟨listed, found, -⟩ := Option.map_eq_some_iff.mp given
  have := (List.getElem?_eq_some_iff.mp found).1
  simp only [List.length_append, List.length_cons, List.length_nil] at this
  omega

end NodeRun

end Cnetmod.Raft
