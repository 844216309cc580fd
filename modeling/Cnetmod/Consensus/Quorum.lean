import Mathlib.Data.Set.Basic
import Mathlib.Data.List.Basic

/-!
# Quorums

Families of sets any two of which meet, and the majorities of a list of voters
as the standard instance. Votes are counted by position in the voter list, so
the counting argument needs no assumption about repeated voters.
-/
namespace Cnetmod.Consensus

variable {N : Type*}

/-- Sets of nodes any two of which have a member in common. -/
structure QuorumSystem (N : Type*) where
  isQuorum : Set N → Prop
  meet : ∀ {Q R : Set N}, isQuorum Q → isQuorum R → ∃ q, q ∈ Q ∧ q ∈ R

lemma countP_add_le_of_disjoint (vs : List N) (p q : N → Bool) (ha : ∀ v ∈ vs, ¬ (p v = true ∧ q v = true)) :
    vs.countP p + vs.countP q ≤ vs.length := by
  induction vs with
  | nil => simp
  | cons v tl ih =>
    have ht := ih fun w hm => ha w (by simp [hm])
    simp only [List.countP_cons, List.length_cons]
    split <;> split <;> first | omega | simp_all

/-- Two predicates that each hold of more than half the voters share a voter. -/
lemma exists_common_of_majorities (vs : List N) (p q : N → Bool) (hp : vs.length / 2 + 1 ≤ vs.countP p)
    (hq : vs.length / 2 + 1 ≤ vs.countP q) : ∃ v ∈ vs, p v = true ∧ q v = true := by
  by_contra hn
  have ha : ∀ v ∈ vs, ¬ (p v = true ∧ q v = true) := by
    intro v hm hb
    exact hn ⟨v, hm, hb⟩
  have := countP_add_le_of_disjoint vs p q ha
  omega

open Classical in
/-- The sets that hold a majority of a voter list. -/
noncomputable def majorities (voters : List N) : QuorumSystem N where
  isQuorum Q := voters.length / 2 + 1 ≤ voters.countP fun v => decide (v ∈ Q)
  meet := by
    intro Q R left right
    obtain ⟨v, _, inQ, inR⟩ := exists_common_of_majorities voters _ _ left right
    exact ⟨v, of_decide_eq_true inQ, of_decide_eq_true inR⟩

open Classical in
/-- A predicate that counts to a majority makes its extension a quorum. -/
lemma majorities_isQuorum_of_countP {vs : List N} {p : N → Bool} {Q : Set N}
    (hm : vs.length / 2 + 1 ≤ vs.countP p) (sub : ∀ v, p v = true → v ∈ Q) : (majorities vs).isQuorum Q :=
  le_trans hm (List.countP_mono_left fun v _ hh => by simpa using sub v hh)

end Cnetmod.Consensus
