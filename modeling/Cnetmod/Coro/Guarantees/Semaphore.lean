import Cnetmod.Consensus.Run
import Cnetmod.Coro.Source.Semaphore

/-!
# The semaphore conserves its permits

In every interleaving the counter and the permits granted make up what there was at first
and what was released, unless a release adds one to the largest `size_t`. Nobody waits
while there is a permit, and permits go to waiters in the order in which they were queued.
-/
namespace Cnetmod.Coro

open Consensus (Reached)

inductive SemaphoreStep where
  | tryAcquire (c : Nat)
  | awaitReady (c : Nat)
  | awaitSuspend (c : Nat)
  | compareExchange (a : AcquireAttempt) (spurious : Bool)
  | release

namespace AsyncSemaphore

variable {s t : AsyncSemaphore} {n : Nat}

def step (s : AsyncSemaphore) : SemaphoreStep → Option AsyncSemaphore
  | .tryAcquire c => some (s.tryAcquire c)
  | .awaitReady c => some (s.awaitReady c)
  | .awaitSuspend c => s.awaitSuspend c
  | .compareExchange a spurious => s.compareExchange a spurious
  | .release => s.release

/-- No release finds the counter at its largest value. -/
def Fits (s : AsyncSemaphore) : SemaphoreStep → Prop
  | .release => s.count + 1 < 2 ^ 64
  | _ => True

instance (s : AsyncSemaphore) (a : SemaphoreStep) : Decidable (s.Fits a) := by
  cases a <;> dsimp only [Fits] <;> infer_instance

/-- The permits add up, those who wait find none, and an attempt has seen one. -/
structure Sound (n : Nat) (s : AsyncSemaphore) : Prop where
  permits : s.count + s.granted = n + s.released
  waiting : s.queue ≠ [] → s.count = 0
  order : s.queued = s.handed ++ s.queue
  seen : ∀ a ∈ s.attempts, 0 < a.seen

lemma Sound.new (n : Nat) : Sound n { count := n } := ⟨rfl, fun hq => absurd rfl hq, rfl, nofun⟩

/-- A release hands a permit to one waiter at most. -/
lemma release_granted (ht : s.release = some t) : t.granted ≤ s.granted + 1 ∧ t.handed.length ≤ s.handed.length + 1 := by
  rw [release] at ht
  split at ht
  · split at ht <;> cases ht
    · exact ⟨Nat.le_succ _, Nat.le_succ _⟩
    · exact ⟨Nat.le_refl _, by simp⟩
  · cases ht

namespace Sound

variable (hs : s.Sound n)

include hs

lemma look (p : AcquirePath) (c : Nat) : (s.look p c).Sound n := by
  unfold AsyncSemaphore.look
  split
  next hp => exact { hs with seen := List.forall_mem_cons.mpr ⟨hp, hs.seen⟩ }
  next hz =>
    cases p with
    | tryAcquire => exact hs
    | awaitReady => exact { hs with }
    | awaitSuspend =>
      refine { hs with waiting := fun _ => Nat.eq_zero_of_not_pos hz, order := ?_ }
      rw [hs.order, List.append_assoc]

lemma awaitSuspend (ht : s.awaitSuspend c = some t) : t.Sound n := by
  obtain ⟨-, ⟨⟩⟩ := Option.ite_none_right_eq_some.mp ht
  have hl : Sound n { s with deciding := s.deciding.erase c, holder := some c } := { hs with }
  exact hl.look .awaitSuspend c

lemma compareExchange (ht : s.compareExchange a spurious = some t) : t.Sound n := by
  obtain ⟨ha, ⟨⟩⟩ := Option.ite_none_right_eq_some.mp ht
  have he : Sound n { s with attempts := s.attempts.erase a } :=
    { hs with seen := fun b hb => hs.seen b (List.mem_of_mem_erase hb) }
  dsimp only
  split
  next hc =>
    have hp := hs.seen a ha
    have hn := hs.permits
    refine { he with permits := ?_, waiting := fun hq => ?_ }
    · change s.count - 1 + (s.granted + 1) = n + s.released
      omega
    -- a permit was there, so nobody waits
    have := hs.waiting hq
    omega
  · exact he.look a.path a.c

lemma release (hf : s.count + 1 < 2 ^ 64) (ht : s.release = some t) : t.Sound n := by
  have hp := hs.permits
  rw [AsyncSemaphore.release] at ht
  split at ht
  · split at ht
    next hq =>
      cases ht
      refine { hs with permits := ?_, waiting := fun hw => absurd hq hw }
      change (s.count + 1) % 2 ^ 64 + s.granted = n + (s.released + 1)
      omega
    next c queue hq =>
      cases ht
      refine { hs with permits := ?_, waiting := fun _ => hs.waiting (by simp [hq]), order := ?_ }
      · change s.count + (s.granted + 1) = n + (s.released + 1)
        omega
      change s.queued = s.handed ++ [c] ++ queue
      rw [hs.order, hq, List.append_assoc]
      rfl
  · cases ht

lemma step (hf : s.Fits a) (ht : s.step a = some t) : t.Sound n := by
  cases a with
  | tryAcquire c =>
    cases ht
    exact hs.look .tryAcquire c
  | awaitReady c =>
    cases ht
    exact hs.look .awaitReady c
  | awaitSuspend c => exact hs.awaitSuspend ht
  | compareExchange a spurious => exact hs.compareExchange ht
  | release => exact hs.release hf ht

end Sound

/-- In every run in which no release finds the counter at its largest value: the permits add up, a waiter means that there is
none, a release grants one permit at most, and waiters are granted in queue order. -/
theorem semaphore_conserves (run : Reached step Fits { count := n } s) :
    s.count + s.granted = n + s.released ∧ (s.queue ≠ [] → s.count = 0) ∧
      (∀ t, s.release = some t → t.granted ≤ s.granted + 1 ∧ t.handed.length ≤ s.handed.length + 1) ∧
      s.queued = s.handed ++ s.queue := by
  have hs : s.Sound n := run.invariant (Sound n) (.new n) fun hs hf ht => hs.step hf ht
  exact ⟨hs.permits, hs.waiting, fun _ ht => release_granted ht, hs.order⟩

/-- Of three that want the one permit the first takes it, and the others wait; the release goes to the first of them. -/
theorem semaphore_conserves_handing : ∃ s, Reached step Fits { count := 1 } s ∧ s.handed = [1] ∧ s.queue = [2] ∧ s.count = 0 := by
  have run : Reached step Fits { count := 1 } _ := .runChecked .start
    [.awaitReady 0, .compareExchange ⟨.awaitReady, 0, 1⟩ true, .compareExchange ⟨.awaitReady, 0, 1⟩ false, .awaitReady 1,
      .awaitSuspend 1, .awaitReady 2, .awaitSuspend 2, .release] rfl
  exact ⟨_, run, rfl, rfl, (semaphore_conserves run).2.1 (List.cons_ne_nil 2 [])⟩

/-- A release adds one to the largest counter. -/
theorem semaphore_overflows : ∃ s, Reached step (fun _ _ => True) { count := 2 ^ 64 - 1 } s ∧
    s.count + s.granted ≠ 2 ^ 64 - 1 + s.released :=
  ⟨_, .runChecked .start [.release] rfl, by decide⟩

end AsyncSemaphore

end Cnetmod.Coro
