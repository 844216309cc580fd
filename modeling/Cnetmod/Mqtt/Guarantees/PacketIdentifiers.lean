import Cnetmod.Mqtt.Spec.PacketIds

/-!
# Packet identifiers in use

Identifiers are given out and released while the broker notes those of the messages it
is receiving. When all are in use the search still gives a number.
-/
namespace Cnetmod.Mqtt

/-- A call on the identifiers of a session, or a change of `qos2_received`. -/
inductive IdCall where
  | alloc
  | release (id : Nat)
  | clear
  | receive (ids : Finset Nat)

/-- A session with the identifiers given out that have not been released or cleared since. -/
structure IdRun where
  session : SessionState
  held : Finset Nat

namespace IdRun

def call (r : IdRun) : IdCall → IdRun
  | .alloc => ⟨r.session.allocPacketId.2, insert r.session.allocPacketId.1 r.held⟩
  | .release id => ⟨r.session.releasePacketId id, r.held.erase id⟩
  | .clear => ⟨r.session.clear, ∅⟩
  | .receive ids => ⟨{ r.session with qos2Received := ids }, r.held⟩

abbrev InUse (r : IdRun) (id : Nat) : Prop := id ∈ r.held ∨ id ∈ r.session.qos2Received

def Exhausted (r : IdRun) : Prop := ∀ id, 0 < id → id < 65536 → r.InUse id

/-- An allocation gives a number from 1 to 65535 that is not in use. -/
def GivesUnused (r : IdRun) : Prop :=
  0 < r.session.allocPacketId.1 ∧ r.session.allocPacketId.1 < 65536 ∧ ¬ r.InUse r.session.allocPacketId.1

/-- The property holds before every allocation of the run. -/
def AtAllocs (property : IdRun → Prop) : IdRun → List IdCall → Prop
  | _, [] => True
  | r, c :: calls => (c = .alloc → property r) ∧ AtAllocs property (r.call c) calls

structure Tracked (r : IdRun) : Prop where
  low : 0 < r.session.nextPacketId
  high : r.session.nextPacketId < 65536
  marked : r.held = r.session.allocatedIds

variable {r : IdRun}

lemma Tracked.alloc (ht : r.Tracked) (left : ¬ r.Exhausted) : r.GivesUnused ∧ (r.call .alloc).Tracked := by
  simp only [Exhausted, not_forall, InUse, not_or, ht.marked] at left
  obtain ⟨p, hp, hb, hf⟩ := left
  obtain ⟨id, hl, hi, ha, hs⟩ := SessionState.allocPacketId_free ht.low ht.high hp hb hf
  simp only [GivesUnused, call, InUse, hs, ht.marked]
  exact ⟨⟨hl, hi, not_or.mpr ha⟩, SessionState.advance_pos id, SessionState.advance_lt id, rfl⟩

lemma GivesUnused.not_exhausted (hu : r.GivesUnused) : ¬ r.Exhausted := fun full => hu.2.2 (full _ hu.1 hu.2.1)

lemma Tracked.call (ht : r.Tracked) (left : c = .alloc → ¬ r.Exhausted) : (r.call c).Tracked := by
  cases c with
  | alloc => exact (ht.alloc (left rfl)).2
  | release id => exact ⟨ht.low, ht.high, congrArg (·.erase id) ht.marked⟩
  | clear => exact ⟨Nat.one_pos, show 1 < 65536 by decide, rfl⟩
  | receive ids => exact ⟨ht.low, ht.high, ht.marked⟩

/-- Allocations give identifiers that are not in use exactly as long as there are some. -/
theorem packet_ids_unused_iff (ht : r.Tracked) (calls : List IdCall) :
    AtAllocs GivesUnused r calls ↔ AtAllocs (¬ ·.Exhausted) r calls := by
  induction calls generalizing r with
  | nil => rfl
  | cons c calls ih =>
    have here : (c = .alloc → r.GivesUnused) ↔ (c = .alloc → ¬ r.Exhausted) :=
      forall_congr' fun _ => ⟨(·.not_exhausted), fun left => (ht.alloc left).1⟩
    rw [AtAllocs, here]
    exact and_congr_right fun left => ih (ht.call left)

theorem packet_ids_unused_released : AtAllocs GivesUnused ⟨{}, ∅⟩ [.alloc, .release 1, .receive {2}, .alloc] := by
  refine (packet_ids_unused_iff ⟨by decide, by decide, rfl⟩ _).mpr ?_
  have left {r : IdRun} (unused : ¬ r.InUse 9) : ¬ r.Exhausted := fun full => unused (full 9 (by decide) (by decide))
  exact ⟨fun _ => left (by decide), nofun, nofun, fun _ => left (by decide +kernel), trivial⟩

lemma card_held (hu : AtAllocs GivesUnused r (.replicate k .alloc)) (hb : r.held ⊆ Finset.Icc 1 65535) :
    r.held.card + k ≤ 65535 := by
  induction k generalizing r with
  | zero => simpa using Finset.card_le_card hb
  | succ k ih =>
    obtain ⟨hl, hh, free⟩ := hu.1 rfl
    have hi : r.session.allocPacketId.1 ∈ Finset.Icc 1 65535 := Finset.mem_Icc.mpr ⟨hl, by omega⟩
    have hk := ih hu.2 (Finset.insert_subset hi hb)
    rw [call, Finset.card_insert_of_notMem (not_or.mp free).1] at hk
    omega

/-- With nothing released, one of 65536 allocations gives zero or a number that is in use. -/
theorem packet_ids_run_out : ¬ AtAllocs GivesUnused ⟨{}, ∅⟩ (.replicate 65536 .alloc) := by
  intro unused
  have full := card_held unused (Finset.empty_subset _)
  omega

end IdRun

end Cnetmod.Mqtt
