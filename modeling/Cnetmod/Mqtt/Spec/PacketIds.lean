import Mathlib.Order.Interval.Finset.Nat
import Cnetmod.Mqtt.Source.SessionState

/-!
# Packet identifiers

The search for a free identifier goes round through the numbers from 1 to 65535. In a
session that has none marked, every number comes up in the end.
-/
namespace Cnetmod.Mqtt.SessionState

open Function

variable {s : SessionState} {n p : Nat}

lemma advance_lt (n : Nat) : advance n < 65536 := by
  unfold advance
  split <;> omega

lemma advance_pos (n : Nat) : 0 < advance n := by
  unfold advance
  split <;> omega

lemma iterate_advance_pos (low : 0 < n) (k : Nat) : 0 < advance^[k] n := by
  cases k with
  | zero => exact low
  | succ k =>
    rw [iterate_succ_apply']
    exact advance_pos _

lemma iterate_advance_lt (hh : n < 65536) (k : Nat) : advance^[k] n < 65536 := by
  cases k with
  | zero => exact hh
  | succ k =>
    rw [iterate_succ_apply']
    exact advance_lt _

variable {ids : Finset Nat}

lemma iterate_advance_of_le (hh : n + d < 65536) : advance^[d] n = n + d := by
  induction d with
  | zero => rfl
  | succ d ih =>
    rw [iterate_succ_apply', advance, if_neg (by omega)]
    omega

/-- After the last number comes 1. -/
lemma iterate_advance_wrap (low : 0 < n) (hh : n < 65536) (hp : 65536 ≤ n + d) (ho : n + d < 131071) :
    advance^[d] n = n + d - 65535 := by
  obtain ⟨e, rfl⟩ := Nat.exists_eq_add_of_le (show 65536 - n ≤ d by omega)
  have hl : advance^[65535 - n] n = 65535 := by
    rw [iterate_advance_of_le (by omega)]
    omega
  have hf : advance 65535 = 1 := by rw [advance, if_pos (by omega)]
  have hr : advance^[65536 - n] n = 1 := by
    rw [show 65536 - n = (65535 - n) + 1 by omega, iterate_succ_apply', hl, hf]
  rw [add_comm, iterate_add_apply, iterate_advance_of_le (by omega)]
  omega

/-- From a number above zero every other is less than a round ahead. -/
lemma exists_iterate_advance (low : 0 < n) (hh : n < 65536) (hp : 0 < p) (ho : p < 65536) : ∃ d < 65535, advance^[d] n = p := by
  rcases lt_or_ge p n with hb | ha
  · refine ⟨p + 65535 - n, by omega, ?_⟩
    rw [iterate_advance_wrap low hh (by omega) (by omega)]
    omega
  refine ⟨p - n, by omega, ?_⟩
  rw [iterate_advance_of_le (by omega)]
  omega

lemma iterate_advance_round (low : 0 < n) (hh : n < 65536) : advance^[65535] n = n := by
  rw [iterate_advance_wrap low hh (by omega) (by omega)]
  omega

/-- The identifier is neither given out nor that of a message being received. -/
def Free (s : SessionState) (id : Nat) : Prop := id ∉ s.allocatedIds ∧ id ∉ s.qos2Received

/-- The session with another next identifier and other identifiers marked. -/
def withIds (s : SessionState) (next : Nat) (ids : Finset Nat) : SessionState :=
  { s with nextPacketId := next, allocatedIds := ids }

lemma allocFrom_free (hf : ∃ k < tries, s.Free (advance^[k] s.nextPacketId)) :
    ∃ k, s.Free (advance^[k] s.nextPacketId) ∧ s.allocFrom tries = (advance^[k] s.nextPacketId,
      s.withIds (advance (advance^[k] s.nextPacketId)) (insert (advance^[k] s.nextPacketId) s.allocatedIds)) := by
  induction tries generalizing s with
  | zero =>
    obtain ⟨k, hl, -⟩ := hf
    cases hl
  | succ tries ih =>
    by_cases hfr : s.Free s.nextPacketId
    · exact ⟨0, hfr, if_pos hfr⟩
    obtain ⟨k, hl, hk⟩ := hf
    cases k with
    | zero => exact absurd hk hfr
    | succ k =>
      obtain ⟨k, hk, hs⟩ := ih (s := { s with nextPacketId := advance s.nextPacketId }) ⟨k, by omega, hk⟩
      exact ⟨k + 1, hk, (if_neg hfr).trans hs⟩

/-- A search among identifiers that are all in use. -/
lemma allocFrom_full (hf : ∀ k < tries, ¬ s.Free (advance^[k] s.nextPacketId)) :
    s.allocFrom tries = (advance^[tries] s.nextPacketId,
      s.withIds ((advance^[tries] s.nextPacketId + 1) % 65536) s.allocatedIds) := by
  induction tries generalizing s with
  | zero => rfl
  | succ tries ih =>
    refine (if_neg (hf 0 (by omega))).trans ?_
    exact ih fun k hl => hf (k + 1) (by omega)

/-- What an allocation gives when a number is free: one that is, and goes on behind it. -/
lemma allocPacketId_free (low : 0 < s.nextPacketId) (hh : s.nextPacketId < 65536) (hp : 0 < p) (hb : p < 65536)
    (hf : s.Free p) : ∃ id, 0 < id ∧ id < 65536 ∧ s.Free id ∧
      s.allocPacketId = (id, s.withIds (advance id) (insert id s.allocatedIds)) := by
  obtain ⟨d, hl, rfl⟩ := exists_iterate_advance low hh hp hb
  obtain ⟨k, hk, hs⟩ := allocFrom_free ⟨d, hl, hf⟩
  exact ⟨_, iterate_advance_pos low k, iterate_advance_lt hh k, hk, hs⟩

/-- The session after `k` allocations. -/
def allocated (s : SessionState) : Nat → SessionState
  | 0 => s
  | k + 1 => (s.allocated k).allocPacketId.2

/-- The identifier the allocation after `k` others gives. -/
def nthId (s : SessionState) (k : Nat) : Nat := (s.allocated k).allocPacketId.1

/-- No allocation has given `p` yet. -/
structure Waiting (p : Nat) (s : SessionState) : Prop where
  unreceived : s.qos2Received = ∅
  unmarked : p ∉ s.allocatedIds
  below : s.allocatedIds ⊆ Finset.range 65536
  next : s.nextPacketId < 65536
  zero : s.nextPacketId = 0 → 0 ∉ s.allocatedIds

/-- Grows with every allocation: in the identifiers marked or, when none is free, in the next one. -/
def progress (s : SessionState) : Nat := s.allocatedIds.card * 65536 + (s.nextPacketId + 65535) % 65536

lemma Waiting.free (w : s.Waiting p) (hm : n ∉ s.allocatedIds) : s.Free n :=
  ⟨hm, w.unreceived ▸ Finset.notMem_empty n⟩

lemma Waiting.mark (w : s.Waiting p) (hf : s.Free n) (hl : n < 65536) (ho : n ≠ p) :
    (s.withIds (advance n) (insert n s.allocatedIds)).Waiting p ∧
      s.progress < (s.withIds (advance n) (insert n s.allocatedIds)).progress := by
  refine ⟨⟨w.unreceived, ?_, ?_, advance_lt n, fun hz => absurd hz (advance_pos n).ne'⟩, ?_⟩
  · exact fun hm => (Finset.mem_insert.mp hm).elim (fun hs => ho hs.symm) w.unmarked
  · exact Finset.insert_subset (Finset.mem_range.mpr hl) w.below
  have hn := w.next
  simp only [progress, withIds, Finset.card_insert_of_notMem hf.1]
  omega

lemma Waiting.alloc (w : s.Waiting p) (hb : p < 65536) (ho : s.allocPacketId.1 ≠ p) :
    s.allocPacketId.2.Waiting p ∧ s.progress < s.allocPacketId.2.progress := by
  rcases Nat.eq_zero_or_pos s.nextPacketId with hz | low
  · have hf : s.Free s.nextPacketId := w.free (hz ▸ w.zero hz)
    have hs : s.allocPacketId = (s.nextPacketId, s.withIds (advance s.nextPacketId) (insert s.nextPacketId s.allocatedIds)) := by
      exact if_pos hf
    rw [hs] at ho ⊢
    exact w.mark hf w.next ho
  by_cases hfr : ∃ q, 0 < q ∧ q < 65536 ∧ s.Free q
  · obtain ⟨q, hq, hl, hf⟩ := hfr
    obtain ⟨id, -, hi, ha, hs⟩ := allocPacketId_free low w.next hq hl hf
    rw [hs] at ho ⊢
    exact w.mark ha hi ho
  -- Only zero is left, and the numbers are given again until it comes.
  have hp : p = 0 := by
    by_contra hp
    exact hfr ⟨p, by omega, hb, w.free w.unmarked⟩
  have hs : s.allocPacketId = (s.nextPacketId, s.withIds ((s.nextPacketId + 1) % 65536) s.allocatedIds) := by
    have hr := iterate_advance_round low w.next
    rw [allocPacketId, allocFrom_full, hr]
    exact fun k _ hk => hfr ⟨_, iterate_advance_pos low k, iterate_advance_lt w.next k, hk⟩
  rw [hs]
  refine ⟨⟨w.unreceived, w.unmarked, w.below, Nat.mod_lt _ (by omega), fun _ => hp ▸ w.unmarked⟩, ?_⟩
  have hn := w.next
  simp only [progress, withIds]
  omega

/-- Every number comes up in the end. -/
lemma exists_nthId (none : s.allocatedIds = ∅) (unreceived : s.qos2Received = ∅) (hh : s.nextPacketId < 65536)
    (hb : p < 65536) : ∃ k, s.nthId k = p := by
  by_contra! never
  have hw (k : Nat) : (s.allocated k).Waiting p ∧ k ≤ (s.allocated k).progress := by
    induction k with
    | zero => exact ⟨⟨unreceived, by simp [allocated, none], by simp [allocated, none], hh, by simp [allocated, none]⟩, by omega⟩
    | succ k ih =>
      obtain ⟨hw, hl⟩ := ih.1.alloc hb (never k)
      exact ⟨hw, by rw [allocated]; omega⟩
  obtain ⟨hw, hl⟩ := hw (65537 * 65536)
  have hc := Finset.card_le_card hw.below
  rw [Finset.card_range] at hc
  simp only [progress] at hl
  omega

end Cnetmod.Mqtt.SessionState
