import Mathlib.Data.Finset.Card

/-!
# Separated intervals

A set of numbers as intervals in rising order with a missing number between any
two. Such a list is determined by the set: its length is the number of runs.
-/
namespace Cnetmod.Coding

open List

structure Interval where
  low : Nat
  high : Nat

/-- The number lies in the interval. -/
def Interval.Has (r : Interval) (n : Nat) : Prop := r.low ≤ n ∧ n ≤ r.high

instance (r : Interval) (n : Nat) : Decidable (r.Has n) := inferInstanceAs (Decidable (_ ∧ _))

/-- The number lies in one of the intervals. -/
def Covered (ranges : List Interval) (n : Nat) : Prop := ∃ r ∈ ranges, r.Has n

instance (ranges : List Interval) (n : Nat) : Decidable (Covered ranges n) :=
  inferInstanceAs (Decidable (∃ r ∈ ranges, _))

structure Separated (ranges : List Interval) : Prop where
  proper : ∀ r ∈ ranges, r.low ≤ r.high
  apart : ranges.Pairwise fun a b => a.high + 1 < b.low

/-- The number of runs of consecutive numbers in the set. -/
def runCount (s : Finset Nat) : Nat := (s.filter (· + 1 ∉ s)).card

/-- The set without its lowest run: the numbers that have a gap of the set below them. -/
def dropLowestRun (s : Finset Nat) : Finset Nat :=
  s.filter fun n => ∃ k < n, k ∉ s ∧ ∃ j < k, j ∈ s

variable {before after rs : List Interval} {r : Interval} {n : Nat}

@[simp] lemma not_covered_nil : ¬ Covered [] n := by simp [Covered]

@[simp] lemma covered_cons : Covered (r :: rs) n ↔ r.Has n ∨ Covered rs n := by simp [Covered]

@[simp] lemma covered_append : Covered (before ++ after) n ↔ Covered before n ∨ Covered after n := by
  simp [Covered, or_and_right, exists_or]

@[simp] lemma covered_reverse : Covered rs.reverse n ↔ Covered rs n := by simp [Covered]

lemma separated_nil : Separated [] := ⟨by simp, List.Pairwise.nil⟩

/-- An interval that keeps its distance from those before and after it. -/
lemma separated_insert (hf : Separated before) (hs : Separated after)
    (hp : r.low ≤ r.high) (hb : ∀ a ∈ before, a.high + 1 < r.low)
    (ha : ∀ b ∈ after, r.high + 1 < b.low) : Separated (before ++ r :: after) where
  proper a hm := by
    rcases mem_append.mp hm with left | right
    · exact hf.proper a left
    rcases mem_cons.mp right with rfl | right
    · exact hp
    · exact hs.proper a right
  apart := by
    refine pairwise_append.mpr ⟨hf.apart, pairwise_cons.mpr ⟨ha, hs.apart⟩, ?_⟩
    intro a left b right
    have := hb a left
    rcases mem_cons.mp right with rfl | right
    · exact this
    · have := ha b right
      omega

namespace Separated

lemma left (hs : Separated (before ++ after)) : Separated before :=
  ⟨fun r hm => hs.proper r (mem_append_left after hm), (pairwise_append.mp hs.apart).1⟩

lemma right (hs : Separated (before ++ after)) : Separated after :=
  ⟨fun r hm => hs.proper r (mem_append_right before hm), (pairwise_append.mp hs.apart).2.1⟩

variable {s : Finset Nat} {b : Interval}

lemma between (hs : Separated (before ++ after)) {a : Interval} (left : a ∈ before) (right : b ∈ after) : a.high + 1 < b.low :=
  (pairwise_append.mp hs.apart).2.2 a left b right

lemma tail (hs : Separated (r :: rs)) : Separated rs :=
  (show Separated ([r] ++ rs) from hs).right

lemma head_lt (hs : Separated (r :: rs)) (hl : b ∈ rs) : r.high + 1 < b.low :=
  (show Separated ([r] ++ rs) from hs).between mem_cons_self hl

/-- The end of an interval is followed by a missing number. -/
lemma not_covered_succ (hs : Separated rs) (hm : r ∈ rs) : ¬ Covered rs (r.high + 1) := by
  obtain ⟨hd, second, rfl⟩ := append_of_mem hm
  have own := hs.right.proper r mem_cons_self
  rintro ⟨o, ha, low, hh⟩
  rcases mem_append.mp ha with left | right
  · have := hs.between left (mem_cons_self)
    omega
  rcases mem_cons.mp right with rfl | hl
  · omega
  · have := hs.right.head_lt hl
    omega

/-- A covered number whose successor is missing ends an interval. -/
lemma eq_high (he : r ∈ rs) (ha : r.Has n) (hm : ¬ Covered rs (n + 1)) : n = r.high := by
  by_contra ho
  exact hm ⟨r, he, by have := ha.1; omega, by have := ha.2; omega⟩

lemma highs_nodup (hs : Separated rs) : (rs.map (·.high)).Nodup := by
  refine pairwise_map.mpr (hs.apart.imp_of_mem ?_)
  intro a b _ he ha
  have := hs.proper b he
  omega

/-- The list has as many intervals as the set has runs. -/
lemma length_eq_runCount (hs : Separated rs) (ha : ∀ n, Covered rs n ↔ n ∈ s) : rs.length = runCount s := by
  have he : s.filter (· + 1 ∉ s) = (rs.map (·.high)).toFinset := by
    ext n
    rw [Finset.mem_filter, mem_toFinset, ← ha, ← ha, mem_map]
    constructor
    · rintro ⟨⟨r, hm, hb⟩, hmi⟩
      exact ⟨r, hm, (eq_high hm hb hmi).symm⟩
    · rintro ⟨r, hm, rfl⟩
      exact ⟨⟨r, hm, hs.proper r hm, le_refl _⟩, hs.not_covered_succ hm⟩
  rw [runCount, he, toFinset_card_of_nodup hs.highs_nodup, length_map]

/-- Without its first interval the list is the set without its lowest run. -/
lemma covered_tail_iff (hs : Separated (r :: rs)) (hg : ∀ n, Covered (r :: rs) n ↔ n ∈ s) : Covered rs n ↔ n ∈ dropLowestRun s := by
  have own := hs.proper r mem_cons_self
  rw [dropLowestRun, Finset.mem_filter, ← hg]
  constructor
  · intro hc
    obtain ⟨b, hl, he⟩ := hc
    have hj := hs.head_lt hl
    refine ⟨covered_cons.mpr (.inr ⟨b, hl, he⟩), r.high + 1, by have := he.1; omega, ?_, r.low, by omega, ?_⟩
    · rw [← hg]
      exact hs.not_covered_succ mem_cons_self
    · exact (hg _).mp (covered_cons.mpr (.inl ⟨le_rfl, own⟩))
  rintro ⟨hc, k, hb, hm, j, ho, hp⟩
  rcases covered_cons.mp hc with hf | hl
  · -- a gap below a number of the first interval has nothing of the set under it
    exfalso
    rcases covered_cons.mp ((hg j).mpr hp) with he | ⟨b, ha, he⟩
    · exact hm ((hg k).mp (covered_cons.mpr (.inl ⟨by have := he.1; omega, by have := hf.2; omega⟩)))
    have := hs.head_lt ha
    have := he.1
    have := hf.2
    omega
  · exact hl

end Separated

end Cnetmod.Coding
