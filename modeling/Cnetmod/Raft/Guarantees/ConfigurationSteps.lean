import Cnetmod.Raft.Source.Handlers
import Cnetmod.Raft.Spec.Quorums

/-!
# Quorums across one membership call

Each of the five membership calls leaves a group of voters that both the old
and the new configuration count a majority of, so any two sets that pass the
two quorum tests meet inside that group. The calls pass arbitrary id lists
through `normalized`, which the quorum test relies on: it counts positions.
-/
namespace Cnetmod.Raft

namespace Configuration

/-- The voter lists of which `has_quorum` counts a majority. -/
def countedGroups (c : Configuration) : List (List NodeId) :=
  if c.joint then [c.voters, c.oldVoters] else [c.voters]

variable {c : Configuration}

lemma Majorities.counted (hm : c.Majorities credited) (hc : g ∈ c.countedGroups) : majorityOf g.length ≤ g.countP credited := by
  unfold countedGroups at hc
  cases hj : c.joint with
  | false =>
    rw [hj] at hc
    obtain rfl : g = c.voters := by simpa using hc
    exact hm.new
  | true =>
    rw [hj] at hc
    obtain rfl | rfl : g = c.voters ∨ g = c.oldVoters := by simpa using hc
    · exact hm.new
    · exact hm.old hj

lemma voters_counted (c : Configuration) : c.voters ∈ c.countedGroups := by
  unfold countedGroups
  split <;> simp

lemma oldVoters_counted (hj : c.joint = true) : c.oldVoters ∈ c.countedGroups := by simp [countedGroups, hj]

/-- What the constructor promises about the three id lists. -/
structure Normalised (c : Configuration) : Prop where
  voters_sorted : c.voters.Pairwise (· < ·)
  oldVoters_sorted : c.oldVoters.Pairwise (· < ·)
  learners_sorted : c.learners.Pairwise (· < ·)
  distinct : c.voters.Nodup ∧ c.oldVoters.Nodup ∧ c.learners.Nodup
  learners_apart : ∀ id ∈ c.learners, id ∉ c.voters ∧ id ∉ c.oldVoters

lemma normalised (c : Configuration) : c.Normalised where
  voters_sorted := c.votersNormal.strict
  oldVoters_sorted := c.oldVotersNormal.strict
  learners_sorted := c.learnersNormal.strict
  distinct := ⟨c.votersNormal.nodup, c.oldVotersNormal.nodup, c.learnersNormal.nodup⟩
  learners_apart := c.learnersApart

/-- Entering a joint configuration keeps the voters as its old group. -/
lemma withJoint_oldVoters (hs : c.withJoint newVoters = .ok d) : d.oldVoters = c.voters := by
  unfold withJoint at hs
  simp only at hs
  split at hs
  · cases hs
  split at hs
  · cases hs
  cases hs
  exact c.votersNormal.normalized_eq

lemma joint_of_oldVoters (some : c.oldVoters ≠ []) : c.joint = true := by
  simpa [joint, ConfigurationState.joint, oldVoters] using some

/-- A call that leaves both voter lists alone, whatever it does to the learners. -/
lemma ofState_shared_voters (c : Configuration) (old learners : List NodeId) : c.voters ∈ c.countedGroups ∧
      c.voters ∈ (ofState { voters := c.voters, oldVoters := old,
                            learners := learners }).countedGroups := by
  refine ⟨c.voters_counted, ?_⟩
  generalize hn : ofState { voters := c.voters, oldVoters := old, learners := learners } = next
  have hk : next.voters = c.voters := hn ▸ c.votersNormal.normalized_eq
  exact hk ▸ next.voters_counted

end Configuration

open Configuration RaftNode

variable {d c : Configuration}

/-- A joint configuration that keeps `c`'s voters counts a group `c` counts too. -/
lemma Configuration.shared_of_oldVoters (some : c.voters ≠ []) (hk : d.oldVoters = c.voters) :
    c.voters ∈ c.countedGroups ∧ c.voters ∈ d.countedGroups := by
  refine ⟨c.voters_counted, ?_⟩
  have hj : d.joint = true := joint_of_oldVoters (hk ▸ some)
  exact hk ▸ oldVoters_counted hj

/-- Every membership call leaves the voters of the old configuration counted. -/
lemma ConfigurationChange.shared_group {change : ConfigurationChange}
    (some : c.voters ≠ []) (hs : change.apply c = .ok d) : c.voters ∈ c.countedGroups ∧ c.voters ∈ d.countedGroups := by
  cases change with
  | enterJoint newVoters => exact shared_of_oldVoters some (withJoint_oldVoters hs)
  | leaveJoint =>
    simp only [ConfigurationChange.apply, leaveJoint] at hs
    split at hs
    · cases hs
    · cases hs
      exact c.ofState_shared_voters [] c.learners
  | setLearners learners =>
    cases hs
    exact c.ofState_shared_voters c.oldVoters _
  | promoteLearner id =>
    simp only [ConfigurationChange.apply, Configuration.promoteLearner] at hs
    split at hs
    · cases hs
    split at hs
    · cases hs
    rename_i promoted he
    cases hs
    refine shared_of_oldVoters some ?_
    rw [← withJoint_oldVoters he]
    exact promoted.oldVotersNormal.normalized_eq
  | removeNode id =>
    simp only [ConfigurationChange.apply, removeMember] at hs
    split at hs
    · cases hs
      exact c.ofState_shared_voters c.oldVoters _
    split at hs
    · cases hs
    split at hs
    · cases hs
    · exact shared_of_oldVoters some (withJoint_oldVoters hs)

/-- Across any successful membership call the old and the new quorums meet in a
voter of a group both sides count, and the new configuration is normalised. -/
theorem membership_step_quorums_meet (c d : Configuration) (change : ConfigurationChange)
    (success : change.apply c = .ok d) :
    (∀ before after : Finset NodeId, c.hasQuorum before = true → d.hasQuorum after = true →
      ∃ group, group ∈ c.countedGroups ∧ group ∈ d.countedGroups ∧ ∃ id ∈ group, id ∈ before ∧ id ∈ after) ∧ d.Normalised := by
  refine ⟨?_, d.normalised⟩
  intro before after left right
  have left := (c.hasQuorum_iff before).mp left
  have right := (d.hasQuorum_iff after).mp right
  obtain ⟨hi, hn⟩ := ConfigurationChange.shared_group left.voters_ne_nil success
  obtain ⟨id, hm, hc, ha⟩ := Consensus.exists_common_of_majorities c.voters _ _ (left.counted hi) (right.counted hn)
  exact ⟨c.voters, hi, hn, id, hm, of_decide_eq_true hc, of_decide_eq_true ha⟩

/-- The call that adds `d` to three voters, with repeated and empty ids in the list. -/
theorem membership_step_quorums_meet_growing :
    ∃ id, id ∈ ({"a", "b"} : Finset NodeId) ∧ id ∈ ({"b", "c", "d"} : Finset NodeId) := by
  have hs := membership_step_quorums_meet
    (ofState { voters := ["a", "b", "c"] })
    (ofState { voters := ["a", "b", "c", "d"], oldVoters := ["a", "b", "c"] })
    (.enterJoint ["d", "b", "", "a", "d", "c"]) (by decide +kernel)
  obtain ⟨_, _, _, id, _, hc, ha⟩ :=
    hs.1 {"a", "b"} {"b", "c", "d"} (by decide +kernel) (by decide +kernel)
  exact ⟨id, hc, ha⟩

end Cnetmod.Raft
