import Cnetmod.Consensus.Quorum
import Cnetmod.Raft.Source.Configuration

/-!
# What the quorum tests decide

`configuration::has_quorum` and the early-exit loops at the head of `node.cpp`
both decide `Majorities`: a majority of the voters and, in a joint
configuration, a majority of the old voters as well.
-/
namespace Cnetmod.Raft

open Bool
open Consensus (exists_common_of_majorities majorities majorities_isQuorum_of_countP)
open Configuration

/-- The joint-consensus rule for a set of nodes given by its test. -/
structure Configuration.Majorities (conf : Configuration) (credited : NodeId → Bool) : Prop where
  new : majorityOf conf.voters.length ≤ conf.voters.countP credited
  old : conf.joint = true → majorityOf conf.oldVoters.length ≤ conf.oldVoters.countP credited

lemma groupHasQuorum_go (tl : List NodeId) (hs : n < groupHasQuorum.required vs) :
    groupHasQuorum.go vs acked tl n = true ↔ groupHasQuorum.required vs ≤ n + tl.countP acked := by
  induction tl generalizing n with
  | nil =>
    simp only [groupHasQuorum.go, List.countP_nil, false_eq_true, false_iff]
    omega
  | cons voter tl ih =>
    unfold groupHasQuorum.go
    by_cases hit : acked voter = true
    · rw [if_pos hit, List.countP_cons_of_pos hit]
      split
      · simp only [true_iff]
        omega
      · rw [ih (by omega)]
        omega
    · rw [if_neg hit, List.countP_cons_of_neg hit, ih hs]

lemma groupHasQuorum_iff (vs : List NodeId) (acked : NodeId → Bool) :
    groupHasQuorum vs acked = true ↔ majorityOf vs.length ≤ vs.countP acked := by
  unfold groupHasQuorum
  rw [groupHasQuorum_go vs (by simp [groupHasQuorum.required])]
  simp [groupHasQuorum.required, majorityOf]

namespace Configuration

variable {conf : Configuration}

lemma Majorities.voters_ne_nil (hm : conf.Majorities credited) : conf.voters ≠ [] := by
  intro he
  have := hm.new
  simp [he, majorityOf] at this

lemma Majorities.mono (hm : conf.Majorities p)
    (le : ∀ id, p id = true → q id = true) : conf.Majorities q where
  new := hm.new.trans (List.countP_mono_left fun id _ => le id)
  old hj := (hm.old hj).trans (List.countP_mono_left fun id _ => le id)

end Configuration

lemma configurationHasQuorum_iff (conf : Configuration) (acked : NodeId → Bool) :
    configurationHasQuorum conf acked = true ↔ conf.Majorities acked := by
  unfold configurationHasQuorum
  constructor
  · intro hh
    split at hh
    · simp at hh
    split at hh
    · simp at hh
    rename_i some
    simp only [not_eq_true', not_eq_false] at some
    refine ⟨(groupHasQuorum_iff _ _).mp some, fun hj => (groupHasQuorum_iff _ _).mp ?_⟩
    simpa [hj] using hh
  · intro hm
    have hn : ¬ conf.voters.isEmpty = true := by simpa using hm.voters_ne_nil
    have new := (groupHasQuorum_iff _ _).mpr hm.new
    rw [if_neg hn, new]
    cases hj : conf.joint with
    | false => simp
    | true => simp [(groupHasQuorum_iff _ _).mpr (hm.old hj)]

lemma Configuration.hasQuorum_iff (conf : Configuration) (acked : Finset NodeId) :
    conf.hasQuorum acked = true ↔ conf.Majorities (· ∈ acked) := by
  unfold hasQuorum
  constructor
  · intro hh
    split at hh
    · simp at hh
    cases hj : conf.joint with
    | false =>
      refine ⟨?_, by simp [hj]⟩
      simpa [hj, quorumSize] using hh
    | true =>
      simp only [hj, Bool.not_true, false_eq_true, if_false, and_eq_true, decide_eq_true_eq] at hh
      exact ⟨hh.1, fun _ => hh.2⟩
  · intro hm
    have hn : ¬ conf.voters.isEmpty = true := by simpa using hm.voters_ne_nil
    rw [if_neg hn]
    cases hj : conf.joint with
    | false => simpa [quorumSize] using hm.new
    | true => simpa [quorumSize, oldQuorumSize] using
        ⟨hm.new, hm.old hj⟩

/-- A set that passes the test is a quorum of the voters. -/
lemma Configuration.Majorities.isQuorum {conf : Configuration}
    (hm : conf.Majorities credited) (sub : ∀ id, credited id = true → id ∈ Q) : (majorities conf.voters).isQuorum Q :=
  majorities_isQuorum_of_countP hm.new sub

/-- Any two sets that pass the test of one configuration share a voter. -/
lemma Configuration.Majorities.meet {conf : Configuration} (left : conf.Majorities p) (right : conf.Majorities q) :
    ∃ id ∈ conf.voters, p id = true ∧ q id = true :=
  exists_common_of_majorities _ _ _ left.new right.new

/-- A counted node that is alone in its group, or nearly: one vote decides. -/
lemma Configuration.quorumSize_eq_one_iff (conf : Configuration) : conf.quorumSize = 1 ↔ conf.voters.length ≤ 1 := by
  unfold quorumSize majorityOf
  omega

lemma Configuration.ne_empty_of_contains {conf : Configuration} {id : NodeId} (hm : conf.contains id = true) : id ≠ "" := by
  rintro rfl
  simp only [contains, or_eq_true, decide_eq_true_eq] at hm
  rcases hm with new | old
  · exact conf.votersNormal.named new
  · exact conf.oldVotersNormal.named old

end Cnetmod.Raft
