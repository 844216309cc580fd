import Mathlib.Data.List.Sort
import Mathlib.Data.Finset.Insert
import Cnetmod.Raft.Source.Types

/-!
# Voter sets and quorums

`raft_configuration.cpp`, `raft_config` of `raft_types.cppm` and the two quorum
templates at the head of `node.cpp`. A `Configuration` can only be built by
`ofState`, so its three id vectors are always sorted, free of duplicates and of
the empty id, and its learners never vote. On such vectors
`std::ranges::binary_search` is membership.
-/
namespace Cnetmod.Raft

variable (ids : List NodeId)

/-- `std::ranges::sort` followed by erasing the `std::ranges::unique` tail. -/
def sortUnique (ids : List NodeId) : List NodeId :=
  (ids.insertionSort (· ≤ ·)).dedup

def normalized (ids : List NodeId) : List NodeId :=
  sortUnique (ids.filter (· ≠ ""))

def majorityOf (n : Nat) : Nat := n / 2 + 1

@[simp] lemma mem_sortUnique (id : NodeId) : id ∈ sortUnique ids ↔ id ∈ ids := by simp [sortUnique]

@[simp] lemma mem_normalized (id : NodeId) : id ∈ normalized ids ↔ id ∈ ids ∧ id ≠ "" := by
  simp [normalized]

lemma sortUnique_strict : (sortUnique ids).Pairwise (· < ·) := by
  have hs : (sortUnique ids).Pairwise (· ≤ ·) := (List.pairwise_insertionSort (· ≤ ·) ids).sublist (List.dedup_sublist _)
  have ha : (sortUnique ids).Nodup := List.nodup_dedup _
  exact (hs.and ha).imp fun h => lt_of_le_of_ne h.1 h.2

/-- The shape `normalized` gives an id vector. -/
structure NormalIds (ids : List NodeId) : Prop where
  strict : ids.Pairwise (· < ·)
  named : "" ∉ ids

lemma normalized_normal : NormalIds (normalized ids) :=
  ⟨sortUnique_strict _, by simp⟩

lemma NormalIds.nodup {ids : List NodeId} (h : NormalIds ids) : ids.Nodup :=
  h.strict.imp fun hl => ne_of_lt hl

/-- Sorting, deduplicating and dropping empty ids changes nothing the second time. -/
lemma NormalIds.normalized_eq {ids : List NodeId} (hn : NormalIds ids) : normalized ids = ids := by
  have ha : ids.filter (· ≠ "") = ids :=
    List.filter_eq_self.mpr fun id hm => by simpa using fun he : id = "" => hn.named (he ▸ hm)
  have hs : ids.insertionSort (· ≤ ·) = ids := List.Pairwise.insertionSort_eq (hn.strict.imp le_of_lt)
  rw [normalized, ha, sortUnique, hs, hn.nodup.dedup]

lemma NormalIds.filter {ids : List NodeId} (h : NormalIds ids) (p : NodeId → Bool) : NormalIds (ids.filter p) :=
  ⟨h.strict.filter p, fun hm => h.named (List.mem_filter.mp hm).1⟩

/-- `configuration`: the state a constructor call leaves behind. -/
structure Configuration where
  state : ConfigurationState
  votersNormal : NormalIds state.voters
  oldVotersNormal : NormalIds state.oldVoters
  learnersNormal : NormalIds state.learners
  learnersApart : ∀ id ∈ state.learners, id ∉ state.voters ∧ id ∉ state.oldVoters
  deriving DecidableEq

namespace Configuration

/-- `configuration::configuration(configuration_state)`. -/
def ofState (s : ConfigurationState) : Configuration where
  state :=
    { voters := normalized s.voters
      oldVoters := normalized s.oldVoters
      learners := (normalized s.learners).filter fun id =>
        !(id ∈ normalized s.voters || id ∈ normalized s.oldVoters) }
  votersNormal := normalized_normal _
  oldVotersNormal := normalized_normal _
  learnersNormal := (normalized_normal _).filter _
  learnersApart := by
    intro id member
    have kept := (List.mem_filter.mp member).2
    rw [Bool.not_eq_true', Bool.or_eq_false_iff] at kept
    exact ⟨of_decide_eq_false kept.1, of_decide_eq_false kept.2⟩

def voters (c : Configuration) : List NodeId := c.state.voters
def oldVoters (c : Configuration) : List NodeId := c.state.oldVoters
def learners (c : Configuration) : List NodeId := c.state.learners
def joint (c : Configuration) : Bool := c.state.joint

def empty (c : Configuration) : Bool :=
  c.voters.isEmpty && c.oldVoters.isEmpty && c.learners.isEmpty

def contains (c : Configuration) (id : NodeId) : Bool :=
  id ∈ c.voters || id ∈ c.oldVoters

def containsLearner (c : Configuration) (id : NodeId) : Bool := id ∈ c.learners

def allVoters (c : Configuration) : List NodeId := normalized (c.voters ++ c.oldVoters)

def allMembers (c : Configuration) : List NodeId := normalized (c.allVoters ++ c.learners)

def quorumSize (c : Configuration) : Nat := majorityOf c.voters.length
def oldQuorumSize (c : Configuration) : Nat := majorityOf c.oldVoters.length

def hasQuorum (c : Configuration) (acked : Finset NodeId) : Bool :=
  let countIn := fun voters : List NodeId => voters.countP fun id => id ∈ acked
  if c.voters.isEmpty then false
  else
    let newQuorum := decide (countIn c.voters ≥ c.quorumSize)
    if !c.joint then newQuorum
    else newQuorum && decide (countIn c.oldVoters ≥ c.oldQuorumSize)

private def refuse (message : String) : RaftError :=
  { code := .configurationError, message := message }

def withJoint (c : Configuration) (newVoters : List NodeId) : Except RaftError Configuration :=
  let newVoters := normalized newVoters
  if newVoters.isEmpty then .error (refuse "joint configuration cannot be empty")
  else if c.joint then
    .error (refuse "cannot enter a joint configuration while already joint")
  else .ok (ofState { voters := newVoters, oldVoters := c.voters, learners := c.learners })

def withLearners (c : Configuration) (learners : List NodeId) : Except RaftError Configuration :=
  let learners := (normalized learners).filter fun id => !c.contains id
  .ok (ofState { voters := c.voters, oldVoters := c.oldVoters, learners := learners })

def promoteLearner (c : Configuration) (id : NodeId) : Except RaftError Configuration :=
  if !c.containsLearner id then .error (refuse "cannot promote a node that is not a learner")
  else
    match c.withJoint (c.voters ++ [id]) with
    | .error e => .error e
    | .ok promoted => .ok (ofState { promoted.state with learners := c.learners.filter (· ≠ id) })

def removeMember (c : Configuration) (id : NodeId) : Except RaftError Configuration :=
  if c.containsLearner id && !c.contains id then
    .ok (ofState { voters := c.voters, oldVoters := c.oldVoters,
                   learners := c.learners.filter (· ≠ id) })
  else if !c.contains id then .error (refuse "cannot remove a node that is not a member")
  else
    let voters := c.voters.filter (· ≠ id)
    if voters.isEmpty then .error (refuse "cannot remove the last voter")
    else c.withJoint voters

def leaveJoint (c : Configuration) : Except RaftError Configuration :=
  if !c.joint then .error (refuse "configuration is not joint")
  else .ok (ofState { voters := c.voters, learners := c.learners })

end Configuration

/-- `group_has_quorum`: the loop stops at the voter that completes the majority. -/
def groupHasQuorum (voters : List NodeId) (acked : NodeId → Bool) : Bool :=
  go voters 0
where
  required : Nat := voters.length / 2 + 1
  go : List NodeId → Nat → Bool
    | [], _ => false
    | voter :: rest, count =>
        if acked voter then
          if count + 1 ≥ required then true else go rest (count + 1)
        else go rest count

/-- `configuration_has_quorum`. -/
def configurationHasQuorum (conf : Configuration) (acked : NodeId → Bool) : Bool :=
  if conf.voters.isEmpty then false
  else if !groupHasQuorum conf.voters acked then false
  else !conf.joint || groupHasQuorum conf.oldVoters acked

structure RaftConfig where
  id : NodeId
  peers : List NodeId := []
  options : RaftOptions := {}

/-- The node itself is always put among the initial voters. -/
def RaftConfig.initialConfiguration (cfg : RaftConfig) : ConfigurationState :=
  { voters := sortUnique (cfg.id :: cfg.peers) }

end Cnetmod.Raft
