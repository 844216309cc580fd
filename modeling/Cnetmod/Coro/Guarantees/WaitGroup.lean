import Cnetmod.Consensus.Run
import Cnetmod.Coro.Source.WaitGroup

/-!
# When the wait group waits for zero

A `done` that has taken the counter to zero takes the queue in a later step. A wait of the
next round that is queued in between is resumed with it, without its own round being done.
Nobody is left in the queue.
-/
namespace Cnetmod.Coro

open List AsyncWaitGroup Option
open Consensus (Reached)

inductive WaitGroupStep where
  | add (n : Nat)
  | done
  | stealWaiters
  | resume (w : Nat)
  | awaitReady
  | awaitSuspend (w : Nat)
  | enqueue

namespace AsyncWaitGroup

variable {g g' : AsyncWaitGroup} {w : Nat}

def act (g : AsyncWaitGroup) : WaitGroupStep → Option AsyncWaitGroup
  | .add n => if 0 < n ∧ n < 2 ^ 31 then some (g.add n) else none
  | .done => g.done
  | .stealWaiters => g.stealWaiters
  | .resume w => g.resume w
  | .awaitReady => some g.awaitReady
  | .awaitSuspend w => g.awaitSuspend w
  | .enqueue => g.enqueue

/-- The step is over: the next moment. -/
def tick (g : AsyncWaitGroup) : AsyncWaitGroup :=
  { g with now := g.now + 1, zeroAt := if g.count = 0 then g.now + 1 else g.zeroAt }

def step (g : AsyncWaitGroup) (a : WaitGroupStep) : Option AsyncWaitGroup := (g.act a).map tick

/-- The counter does not overflow, and no wait is queued for a `done` of the round before. -/
def Orderly (g : AsyncWaitGroup) : WaitGroupStep → Prop
  | .add n => g.count + n < 2 ^ 31
  | .awaitSuspend w => g.count ≤ 0 ∨ g.clearing = 0 ∨ w ≤ g.zeroAt
  | _ => True

instance (g : AsyncWaitGroup) (a : WaitGroupStep) : Decidable (g.Orderly a) := by
  cases a <;> dsimp only [Orderly] <;> infer_instance

/-- Every wait that is queued or about to be. -/
def waiting (g : AsyncWaitGroup) : List Nat := g.queue ++ g.holder.toList

/-- What an access leaves behind. -/
structure Steady (g : AsyncWaitGroup) : Prop where
  exact : g.count = g.pending
  known : g.zeroAt ≤ g.now
  bound : g.count < 2 ^ 31
  past : ∀ w ∈ g.deciding ++ g.waiting, w ≤ g.now
  served : g.clearing ≠ 0 → g.count ≠ 0 → ∀ w ∈ g.waiting, w ≤ g.zeroAt
  resumed : ∀ w ∈ g.resuming, w ≤ g.zeroAt
  completed : ∀ p ∈ g.completed, p.1 ≤ p.2
  stranded : g.waiting ≠ [] → g.count ≠ 0 ∨ g.clearing ≠ 0

structure Sound (g : AsyncWaitGroup) : Prop extends g.Steady where
  zero : g.count = 0 → g.zeroAt = g.now

lemma Steady.tick (hs : g.Steady) : g.tick.Sound := by
  have hl : g.zeroAt ≤ g.tick.zeroAt := by
    change g.zeroAt ≤ if g.count = 0 then g.now + 1 else g.zeroAt
    have := hs.known
    split <;> omega
  refine { hs with
    known := ?_
    past := fun w hw => Nat.le_succ_of_le (hs.past w hw)
    served := fun hc hn w hw => (hs.served hc hn w hw).trans hl
    resumed := fun w hw => (hs.resumed w hw).trans hl
    zero := fun hc => if_pos hc }
  change (if g.count = 0 then g.now + 1 else g.zeroAt) ≤ g.now + 1
  have := hs.known
  split <;> omega

lemma toInt32_eq (hl : 0 ≤ v) (hu : v < 2 ^ 31) : toInt32 v = v := by
  rw [toInt32, Int.bmod_eq_of_le] <;> omega

namespace Sound

lemma new : ({} : AsyncWaitGroup).Sound := by
  constructor
  · constructor <;> simp [waiting]
  · exact fun _ => rfl

variable (hs : g.Sound)

include hs

/-- A counter that lets a wait pass is zero now. -/
lemma now_le_zeroAt (hc : g.count ≤ 0) : g.now ≤ g.zeroAt :=
  (hs.zero (by have := hs.exact; omega)).ge

/-- Those who wait for a `done` that comes to the queue have seen zero. -/
lemma seen (hc : g.clearing ≠ 0) (hw : w ∈ g.waiting) : w ≤ g.zeroAt := by
  by_cases hz : g.count = 0
  · exact (hs.past w (mem_append_right _ hw)).trans (hs.zero hz).ge
  · exact hs.served hc hz w hw

lemma complete (hw : w ≤ g.zeroAt) : (g.complete w).Steady :=
  { hs.toSteady with completed := forall_mem_cons.mpr ⟨hw, hs.completed⟩ }

lemma add {n : Nat} (hn : 0 < n) (hb : g.count + n < 2 ^ 31) : (g.add n).Steady := by
  have he := hs.exact
  have hc : (g.add n).count = g.count + n := toInt32_eq (by omega) hb
  refine { hs.toSteady with
    exact := ?_
    bound := hc ▸ hb
    served := fun hl _ _ hw => hs.seen hl hw
    stranded := fun _ => .inl (by omega) }
  change (g.add n).count = ((g.pending + n : Nat) : Int)
  omega

lemma done (ht : g.done = some g') : g'.Steady := by
  obtain ⟨hp, ⟨⟩⟩ := ite_none_left_eq_some.mp ht
  have he := hs.exact
  have hb := hs.bound
  have hc : toInt32 (g.count - 1) = g.count - 1 := toInt32_eq (by omega) (by omega)
  refine { hs.toSteady with
    exact := ?_
    bound := ?_
    served := fun hl hn w hw => ?_
    stranded := fun hw => ?_ }
  · change toInt32 (g.count - 1) = ((g.pending - 1 : Nat) : Int)
    omega
  · change toInt32 (g.count - 1) < 2 ^ 31
    omega
  · -- the counter was above one, and the calls that take the queue are those of before
    change toInt32 (g.count - 1) ≠ 0 at hn
    rw [if_neg (by omega)] at hl
    exact hs.served hl (by omega) w hw
  · change toInt32 (g.count - 1) ≠ 0 ∨ (if g.count = 1 then g.clearing + 1 else g.clearing) ≠ 0
    split <;> omega

lemma stealWaiters (ht : g.stealWaiters = some g') : g'.Steady := by
  obtain ⟨hn, ⟨⟩⟩ := ite_none_left_eq_some.mp ht
  obtain ⟨hc, hh⟩ := not_or.mp hn
  have ho : g.holder = none := not_not.mp hh
  have hw : waiting { g with queue := [] } = [] := by simp [waiting, ho]
  refine { hs.toSteady with
    past := fun w hm => hs.past w (by simp_all [waiting])
    served := fun _ _ w hm => absurd hm (by simp_all [waiting])
    resumed := fun w hm => ?_
    stranded := fun he => absurd hw he }
  rcases mem_append.mp hm with hm | hm
  · exact hs.resumed w hm
  · exact hs.seen hc (mem_append_left _ hm)

lemma resume (ht : g.resume w = some g') : g'.Steady := by
  obtain ⟨hm, ⟨⟩⟩ := ite_none_right_eq_some.mp ht
  exact { hs.complete (hs.resumed w hm) with resumed := fun v hv => hs.resumed v (mem_of_mem_erase hv) }

lemma awaitReady : g.awaitReady.Steady := by
  rw [AsyncWaitGroup.awaitReady]
  split
  next hc => exact hs.complete (hs.now_le_zeroAt hc)
  · exact { hs.toSteady with past := forall_mem_cons.mpr ⟨le_rfl, hs.past⟩ }

lemma awaitSuspend (ho : g.count ≤ 0 ∨ g.clearing = 0 ∨ w ≤ g.zeroAt) (ht : g.awaitSuspend w = some g') : g'.Steady := by
  rw [AsyncWaitGroup.awaitSuspend] at ht
  split at ht
  next hd =>
    obtain ⟨hn, hm⟩ := hd
    cases ht
    have hw : w ≤ g.now := hs.past w (mem_append_left _ hm)
    have hp : ∀ v ∈ g.deciding.erase w ++ g.waiting, v ≤ g.now := fun v hv =>
      hs.past v ((erase_sublist.append_right _).subset hv)
    dsimp only
    split
    next hc => exact { hs.complete (hw.trans (hs.now_le_zeroAt hc)) with past := hp }
    next hc =>
      have ha : waiting { g with deciding := g.deciding.erase w, holder := some w } = g.waiting ++ [w] := by
        simp [waiting, hn]
      refine { hs.toSteady with
        past := ?_
        served := fun hl he => ?_
        stranded := fun _ => .inl (show g.count ≠ 0 by omega) }
      · rw [ha, ← append_assoc]
        exact forall_mem_append.mpr ⟨hp, by simpa using hw⟩
      rw [ha]
      refine forall_mem_append.mpr ⟨hs.served hl he, ?_⟩
      have hz : w ≤ g.zeroAt := (ho.resolve_left hc).resolve_left hl
      simpa using hz
  · cases ht

lemma enqueue (ht : g.enqueue = some g') : g'.Steady := by
  rw [AsyncWaitGroup.enqueue, map_eq_some_iff] at ht
  obtain ⟨w, hh, rfl⟩ := ht
  have hw : waiting { g with queue := g.queue ++ [w], holder := none } = g.waiting := by
    simp [waiting, hh]
  exact { hs.toSteady with
    past := hw ▸ hs.past
    served := hw ▸ hs.served
    stranded := hw ▸ hs.stranded }

lemma step (ho : g.Orderly a) (ht : g.step a = some g') : g'.Sound := by
  obtain ⟨h, ha, rfl⟩ := map_eq_some_iff.mp ht
  refine Steady.tick ?_
  cases a with
  | add n =>
    obtain ⟨hn, ⟨⟩⟩ := ite_none_right_eq_some.mp ha
    exact hs.add hn.1 ho
  | done => exact hs.done ha
  | stealWaiters => exact hs.stealWaiters ha
  | resume w => exact hs.resume ha
  | awaitReady =>
    cases ha
    exact hs.awaitReady
  | awaitSuspend w => exact hs.awaitSuspend ho ha
  | enqueue => exact hs.enqueue ha

end Sound

/-- In every orderly run a wait completes only after the counter was zero since it began, and nobody is queued when the counter
is zero and neither a `done` nor a `wait` is under way at the queue. -/
theorem wait_group_waits (run : Reached step Orderly {} g) : (∀ p ∈ g.completed, p.1 ≤ p.2) ∧
    (g.count = 0 → g.clearing = 0 → g.holder = none → g.queue = []) := by
  have hs : g.Sound := run.invariant Sound .new fun hs ho ht => hs.step ho ht
  refine ⟨hs.completed, fun hc hl hh => ?_⟩
  by_contra hq
  have hw : g.waiting ≠ [] := by simpa [waiting, hh] using hq
  rcases hs.stranded hw with hn | hn
  · exact hn hc
  · exact hn hl

/-- A wait is queued while two parts are pending, the last `done` resumes it, and the group is free again. -/
theorem wait_group_waits_round : ∃ g, Reached step Orderly {} g ∧ g.completed = [(1, 7)] ∧ g.queue = [] := by
  have run : Reached step Orderly {} _ := .runChecked .start
    [.add 2, .awaitReady, .awaitSuspend 1, .enqueue, .done, .done, .stealWaiters, .resume 1] rfl
  exact ⟨_, run, rfl, (wait_group_waits run).2 rfl rfl rfl⟩

/-- The counter is one again when a wait begins and stays so; the `done` of the round before resumes it. -/
theorem wait_group_released_early : ∃ g, Reached step (fun _ _ => True) {} g ∧ ∃ p ∈ g.completed, p.2 < p.1 :=
  ⟨_, .runChecked .start [.add 1, .done, .add 1, .awaitReady, .awaitSuspend 3, .enqueue, .stealWaiters, .resume 3] rfl,
    (3, 2), by decide, by decide⟩

end AsyncWaitGroup

end Cnetmod.Coro
