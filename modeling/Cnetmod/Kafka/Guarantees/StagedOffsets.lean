import Cnetmod.Consensus.Run
import Cnetmod.Kafka.Source.OffsetManager

/-!
# Staged offsets are kept

A confirmed commit clears what is staged, also what was staged after its request was sent.
-/
namespace Cnetmod.Kafka.OffsetManager

open Consensus (Reached)
open Coding (SortedMap)

variable {κ ν : Type} [LinearOrder κ] {m m' : OffsetManager κ ν}

inductive Step (κ ν : Type) where
  | stage (partition : κ) (offset : ν)
  | commit
  | answer (i : Nat) (ok : Bool)

def step (m : OffsetManager κ ν) : Step κ ν → Option (OffsetManager κ ν)
  | .stage partition offset => some (m.stage partition offset)
  | .commit => some m.commit
  | .answer i ok => m.answer i ok

/-- All that is staged is in a request that is confirmed. -/
def Covered (m : OffsetManager κ ν) : Step κ ν → Prop
  | .answer i true => ∀ request ∈ m.running[i]?, ∀ record ∈ m.staged.records, record ∈ request.records
  | _ => True

instance [DecidableEq ν] (m : OffsetManager κ ν) (a : Step κ ν) : Decidable (m.Covered a) := by
  cases a with
  | answer i ok => cases ok <;> dsimp only [Covered] <;> infer_instance
  | _ => exact .isTrue trivial

/-- What was last staged is staged or confirmed. -/
def Kept (m : OffsetManager κ ν) : Prop :=
  ∀ partition offset, m.latest.get partition = some offset →
    m.staged.get partition = some offset ∨ ∃ request ∈ m.confirmed, request.get partition = some offset

lemma Kept.new : ({} : OffsetManager κ ν).Kept := fun _ _ (h : none = some _) => nomatch h

lemma Kept.step {a : Step κ ν} (hk : m.Kept) (ho : m.Covered a) (ht : m.step a = some m') : m'.Kept := by
  cases a with
  | stage q o =>
    cases ht
    intro p v hl
    change (m.latest.put q o).get p = some v at hl
    change (m.staged.put q o).get p = some v ∨ _
    rw [SortedMap.get_put] at hl ⊢
    split
    next he => exact .inl (by rwa [if_pos he] at hl)
    next he => exact hk p v (by rwa [if_neg he] at hl)
  | commit =>
    cases ht
    exact hk
  | answer i ok =>
    obtain ⟨r, hr, rfl⟩ := Option.map_eq_some_iff.mp ht
    cases ok with
    | false => exact hk
    | true =>
      intro p v hl
      right
      rcases hk p v hl with hs | ⟨q, hq, hg⟩
      · exact ⟨r, List.mem_cons_self, SortedMap.get_eq_some_iff.mpr (ho r hr _ (SortedMap.get_eq_some_iff.mp hs))⟩
      · exact ⟨q, List.mem_cons_of_mem _ hq, hg⟩

/-- In every run in which a confirmed commit finds nothing staged that its request does not hold, the offset last staged for
a partition is staged or confirmed. -/
theorem staged_offsets_kept (run : Reached step Covered {} m) : m.Kept :=
  run.invariant Kept .new fun hk ho ht => hk.step ho ht

/-- The offset that is staged while a failed and a confirmed commit are under way is one that the request held. -/
theorem staged_offsets_kept_retried : ∃ m : OffsetManager Nat Nat, Reached step Covered {} m ∧ m.Kept ∧ m.confirmed ≠ [] := by
  have run : Reached step Covered ({} : OffsetManager Nat Nat) _ :=
    .runChecked .start [.stage 0 7, .commit, .answer 0 false, .commit, .stage 0 7, .answer 0 true] rfl
  exact ⟨_, run, staged_offsets_kept run, by decide⟩

/-- An offset staged while the commit waits is cleared with the rest. -/
theorem staged_offset_dropped : ∃ m : OffsetManager Nat Nat, Reached step (fun _ _ => True) {} m ∧ ¬ m.Kept := by
  have run : Reached step (fun _ _ => True) ({} : OffsetManager Nat Nat) _ :=
    .runChecked .start [.stage 0 7, .commit, .stage 0 8, .answer 0 true] rfl
  refine ⟨_, run, fun hk => ?_⟩
  have h := hk 0 8 (by decide)
  revert h
  decide

end Cnetmod.Kafka.OffsetManager
