import Mathlib.Data.Finset.Basic
import Cnetmod.Consensus.History

/-!
# Elections under changing voter sets

A book of ballots remembers for every node and term the vote it cast and, if it
stood, the voter set it counted under. Two winners of one term would have to
share a voter if the voter sets under which different nodes stand in that term
overlap, so a book in which they do has one winner a term.
-/
namespace Cnetmod.Consensus

variable {N K : Type*}

structure Ballots (N K : Type*) where
  vote : N → Nat → Option N
  stood : N → Nat → Option K

def Ballots.start : Ballots N K where
  vote _ _ := none
  stood _ _ := none

structure Ballots.Extends (h h' : Ballots N K) : Prop where
  vote : ∀ {n t c}, h.vote n t = some c → h'.vote n t = some c
  stood : ∀ {n t k}, h.stood n t = some k → h'.stood n t = some k

lemma Ballots.Extends.refl (h : Ballots N K) : h.Extends h := ⟨id, id⟩

lemma Ballots.Extends.trans {h h' h'' : Ballots N K} (ab : h.Extends h') (bc : h'.Extends h'') : h.Extends h'' :=
  ⟨fun hv => bc.vote (ab.vote hv), fun hs => bc.stood (ab.stood hs)⟩

section Winners

variable {quorum : K → Finset N → Prop} {h h' : Ballots N K} {a b : N} {t : Nat}

/-- `c` has a quorum of votes under the voter set it stood with. -/
def Elected (quorum : K → Finset N → Prop) (h : Ballots N K) (c : N) (t : Nat) : Prop :=
  ∃ k Q, h.stood c t = some k ∧ quorum k Q ∧ ∀ q ∈ Q, h.vote q t = some c

def Overlapping (quorum : K → Finset N → Prop) (k k' : K) : Prop :=
  ∀ Q Q', quorum k Q → quorum k' Q' → ∃ q, q ∈ Q ∧ q ∈ Q'

/-- Different nodes stand in one term only under overlapping voter sets. -/
def Coherent (quorum : K → Finset N → Prop) (h : Ballots N K) : Prop :=
  ∀ ⦃a b t k k'⦄, a ≠ b → h.stood a t = some k → h.stood b t = some k' → Overlapping quorum k k'

lemma Overlapping.symm {k k' : K} (ho : Overlapping quorum k k') : Overlapping quorum k' k := by
  intro Q Q' left right
  obtain ⟨q, hn, hi⟩ := ho Q' Q right left
  exact ⟨q, hi, hn⟩

lemma Elected.mono (ext : h.Extends h') (won : Elected quorum h a t) : Elected quorum h' a t := by
  obtain ⟨k, Q, hs, he, hv⟩ := won
  exact ⟨k, Q, ext.stood hs, he, fun q hm => ext.vote (hv q hm)⟩

lemma Elected.unique (hc : Coherent quorum h) (left : Elected quorum h a t) (right : Elected quorum h b t) : a = b := by
  by_contra hdi
  obtain ⟨k, Q, ht, hn, ho⟩ := left
  obtain ⟨k', Q', hs, he, hv⟩ := right
  obtain ⟨q, ha, hi⟩ := hc hdi ht hs Q Q' hn he
  exact hdi (Option.some.inj ((ho q ha).symm.trans (hv q hi)))

end Winners

variable [DecidableEq N] {quorum : K → Finset N → Prop} {h : Ballots N K} {n : N} {t : Nat}

/-- Record a vote. -/
def Ballots.cast (h : Ballots N K) (n : N) (t : Nat) (c : N) : Ballots N K :=
  { h with vote := put h.vote n t (some c) }

/-- Record a candidacy, with the vote the candidate gives itself. -/
def Ballots.stand (h : Ballots N K) (n : N) (t : Nat) (k : K) : Ballots N K :=
  { vote := put h.vote n t (some n), stood := put h.stood n t (some k) }

lemma Ballots.cast_extends (hv : h.vote n t = none) (c : N) : h.Extends (h.cast n t c) :=
  ⟨fun ho => put_keeps hv ho, id⟩

lemma Ballots.stand_extends (hv : h.vote n t = none) (hf : h.stood n t = none) (k : K) : h.Extends (h.stand n t k) :=
  ⟨fun ho => put_keeps hv ho, fun hs => put_keeps hf hs⟩

/-- A candidacy keeps the book coherent if its voter set overlaps the others' of the term. -/
lemma Coherent.stand (hc : Coherent quorum h) {k : K}
    (ho : ∀ b k', b ≠ n → h.stood b t = some k' → Overlapping quorum k k') : Coherent quorum (h.stand n t k) := by
  intro a b s left right hb ha ht
  rcases put_cases ha with ⟨rfl, rfl, hs⟩ | ⟨_, old⟩
  · cases hs
    have old : h.stood b s = some right := by rwa [← put_ne h.stood (some k) (.inl (Ne.symm hb))]
    exact ho b right (Ne.symm hb) old
  rcases put_cases ht with ⟨rfl, rfl, hs⟩ | ⟨_, hl⟩
  · cases hs
    exact (ho a left hb old).symm
  · exact hc hb old hl

end Cnetmod.Consensus
