import Cnetmod.Consensus.Run
import Cnetmod.Coro.Source.SharedMutex

/-!
# The read-write lock excludes and strands nobody

The counter is the number of readers or says that there is a writer, and a coroutine
waits only while somebody has the lock.
-/
namespace Cnetmod.Coro

open List

open Consensus (Reached)

inductive SharedMutexStep where
  | sharedAwaitReady (c : Nat)
  | sharedAwaitSuspend (c : Nat)
  | awaitReady (c : Nat)
  | awaitSuspend (c : Nat)
  | tryLock (c : Nat)
  | unlockShared (c : Nat)
  | unlock (c : Nat)

namespace AsyncSharedMutex

variable {rw rw' : AsyncSharedMutex} {c : Nat}

def step (rw : AsyncSharedMutex) : SharedMutexStep → Option AsyncSharedMutex
  | .sharedAwaitReady c => some (rw.sharedAwaitReady c)
  | .sharedAwaitSuspend c => rw.sharedAwaitSuspend c
  | .awaitReady c => some (rw.awaitReady c)
  | .awaitSuspend c => rw.awaitSuspend c
  | .tryLock c => some (rw.tryLock c)
  | .unlockShared c => rw.unlockShared c
  | .unlock c => rw.unlock c

/-- The counter does not pass the largest `int`: not by one more reader, and not by the readers that wait for a
writer to unlock. -/
def fits (rw : AsyncSharedMutex) : SharedMutexStep → Bool
  | .sharedAwaitReady _ | .sharedAwaitSuspend _ => !rw.sharedFree || rw.state + 1 < 2 ^ 31
  | .unlock _ => !rw.writeQueue.isEmpty || rw.readQueue.length < 2 ^ 31
  | _ => true

/-- The counter agrees with those who have the lock: readers only, or one writer. -/
def Counts (rw : AsyncSharedMutex) : Prop :=
  (rw.state = rw.readers.length ∧ rw.writers = []) ∨ (rw.state = -1 ∧ rw.readers = [] ∧ rw.writers.length = 1)

/-- Writers wait while the lock is taken, readers while a writer has it or waits for it. -/
structure Sound (rw : AsyncSharedMutex) : Prop where
  counts : rw.Counts
  bounded : rw.state < 2 ^ 31
  writers : rw.writeQueue ≠ [] → rw.state ≠ 0
  readers : rw.readQueue ≠ [] → rw.state = -1 ∨ rw.writeQueue ≠ []

lemma wrapInt_eq {value : Int} (low : -1 ≤ value) (high : value < 2 ^ 31) : wrapInt value = value := by
  rw [wrapInt, Int.bmod_eq_of_le] <;> omega

namespace Sound

lemma new : ({} : AsyncSharedMutex).Sound :=
  ⟨.inl ⟨rfl, rfl⟩, by decide, fun waits => absurd rfl waits, fun waits => absurd rfl waits⟩

/-- A free lock has nobody. -/
lemma free (sound : rw.Sound) (unlocked : rw.state = 0) : rw.readers = [] ∧ rw.writers = [] := by
  rcases sound.counts with ⟨count, none⟩ | ⟨count, -, -⟩
  · exact ⟨length_eq_zero_iff.mp (by omega), none⟩
  · omega

lemma takeExclusive (sound : rw.Sound) (unlocked : rw.state = 0) (c : Nat) : (rw.takeExclusive c).Sound := by
  obtain ⟨readers, writers⟩ := sound.free unlocked
  refine ⟨.inr ⟨rfl, readers, ?_⟩, ?_, fun _ => show (-1 : Int) ≠ 0 by decide, fun _ => .inl rfl⟩
  · exact congrArg (length ∘ cons c) writers
  · exact show (-1 : Int) < 2 ^ 31 by decide

variable (sound : rw.Sound)

include sound

lemma takeShared (unlocked : rw.sharedFree = true) (room : rw.state + 1 < 2 ^ 31) (c : Nat) :
    (rw.takeShared c).Sound := by
  rw [sharedFree, Bool.and_eq_true, decide_eq_true_eq, List.isEmpty_iff] at unlocked
  obtain ⟨positive, empty⟩ := unlocked
  have wrapped : wrapInt (rw.state + 1) = rw.state + 1 := wrapInt_eq (by omega) room
  rcases sound.counts with ⟨count, none⟩ | ⟨count, -, -⟩
  · refine ⟨.inl ⟨?_, none⟩, wrapped.trans_lt room, fun waits => absurd empty waits, fun waits => ?_⟩
    · change wrapInt (rw.state + 1) = ((c :: rw.readers).length : Int)
      rw [wrapped, count]
      rfl
    rcases sound.readers waits with writer | writer
    · omega
    · exact absurd empty writer
  · omega

lemma sharedAwaitReady (room : rw.fits (.sharedAwaitReady c) = true) : (rw.sharedAwaitReady c).Sound := by
  rw [AsyncSharedMutex.sharedAwaitReady]
  split
  next unlocked => exact sound.takeShared unlocked (by simpa [fits, unlocked] using room) c
  · exact ⟨sound.counts, sound.bounded, sound.writers, sound.readers⟩

lemma sharedAwaitSuspend (room : rw.fits (.sharedAwaitSuspend c) = true)
    (taken : rw.sharedAwaitSuspend c = some rw') : rw'.Sound := by
  obtain ⟨-, ⟨⟩⟩ := Option.ite_none_right_eq_some.mp taken
  have sound : ({ rw with decidingShared := rw.decidingShared.erase c } : AsyncSharedMutex).Sound :=
    ⟨sound.counts, sound.bounded, sound.writers, sound.readers⟩
  split
  next unlocked =>
    have unlocked' : rw.sharedFree = true := unlocked
    exact sound.takeShared unlocked (by simpa [fits, unlocked'] using room) c
  rename_i locked
  refine ⟨sound.counts, sound.bounded, sound.writers, fun _ => ?_⟩
  -- the section looks at the lock again before it queues the coroutine
  rw [sharedFree, Bool.and_eq_true, not_and_or, decide_eq_true_eq, List.isEmpty_iff] at locked
  rcases locked with writer | waiting
  · rcases sound.counts with ⟨count, -⟩ | ⟨count, -, -⟩
    · exact absurd (count ▸ Int.natCast_nonneg _) writer
    · exact .inl count
  · exact .inr waiting

lemma awaitReady (c : Nat) : (rw.awaitReady c).Sound := by
  rw [AsyncSharedMutex.awaitReady]
  split
  next unlocked => exact sound.takeExclusive unlocked c
  · exact ⟨sound.counts, sound.bounded, sound.writers, sound.readers⟩

lemma awaitSuspend (taken : rw.awaitSuspend c = some rw') : rw'.Sound := by
  obtain ⟨-, ⟨⟩⟩ := Option.ite_none_right_eq_some.mp taken
  have sound : ({ rw with decidingExclusive := rw.decidingExclusive.erase c } : AsyncSharedMutex).Sound :=
    ⟨sound.counts, sound.bounded, sound.writers, sound.readers⟩
  split
  next unlocked => exact sound.takeExclusive unlocked c
  next locked => exact ⟨sound.counts, sound.bounded, fun _ => locked, fun _ => .inr (by simp)⟩

lemma tryLock (c : Nat) : (rw.tryLock c).Sound := by
  rw [AsyncSharedMutex.tryLock]
  split
  next unlocked => exact sound.takeExclusive unlocked c
  · exact sound

lemma unlockShared (taken : rw.unlockShared c = some rw') : rw'.Sound := by
  rw [AsyncSharedMutex.unlockShared] at taken
  split at taken
  next reader =>
    have fewer := length_erase_of_mem reader
    have some : 0 < rw.readers.length := length_pos_of_mem reader
    rcases sound.counts with ⟨count, alone⟩ | ⟨-, none, -⟩
    · have bounded := sound.bounded
      have wrapped : wrapInt (rw.state - 1) = rw.state - 1 := wrapInt_eq (by omega) (by omega)
      have left : wrapInt (rw.state - 1) = ((rw.readers.erase c).length : Int) := by omega
      have below : wrapInt (rw.state - 1) < 2 ^ 31 := by omega
      dsimp only at taken
      split at taken
      next waiter writeQueue waits =>
        split at taken
        next last =>
          cases taken
          have gone : rw.readers.erase c = [] := length_eq_zero_iff.mp (by omega)
          exact ⟨.inr ⟨rfl, gone, congrArg (length ∘ cons waiter) alone⟩, show (-1 : Int) < 2 ^ 31 by decide,
            fun _ => show (-1 : Int) ≠ 0 by decide, fun _ => .inl rfl⟩
        next more =>
          cases taken
          refine ⟨.inl ⟨left, alone⟩, below, fun _ => more, fun _ => .inr ?_⟩
          rw [waits]
          exact cons_ne_nil _ _
      next empty =>
        cases taken
        refine ⟨.inl ⟨left, alone⟩, below, fun waits => absurd empty waits, fun waits => ?_⟩
        rcases sound.readers waits with writer | writer
        · omega
        · exact absurd empty writer
    · rw [none] at some
      cases some
  · cases taken

lemma unlock (room : rw.fits (.unlock c) = true) (taken : rw.unlock c = some rw') : rw'.Sound := by
  rw [AsyncSharedMutex.unlock] at taken
  split at taken
  next writer =>
    rcases sound.counts with ⟨-, none⟩ | ⟨count, readers, one⟩
    · rw [none] at writer
      cases writer
    have gone : rw.writers.erase c = [] := by rw [← length_eq_zero_iff, length_erase_of_mem writer, one]
    dsimp only at taken
    split at taken
    next waiter writeQueue waits =>
      cases taken
      refine ⟨.inr ⟨count, readers, congrArg (length ∘ cons waiter) gone⟩, sound.bounded, fun _ => ?_, fun _ => .inl count⟩
      change rw.state ≠ 0
      omega
    next empty none =>
      cases taken
      refine ⟨.inl ⟨?_, gone⟩, show (0 : Int) < 2 ^ 31 by decide, fun waits => absurd empty waits, fun waits => absurd none waits⟩
      exact congrArg (fun l : List Nat => (l.length : Int)) readers.symm
    next empty some =>
      have few : rw.readQueue.length < 2 ^ 31 := by simpa [fits, empty] using room
      rw [wrapInt_eq (by omega) (by omega)] at taken
      cases taken
      refine ⟨.inl ⟨?_, gone⟩, ?_, fun waits => absurd empty waits, fun waits => absurd rfl waits⟩
      · rw [readers, append_nil]
      · change (rw.readQueue.length : Int) < 2 ^ 31
        omega
  · cases taken

lemma step (room : rw.fits act = true) (taken : rw.step act = some rw') : rw'.Sound := by
  cases act with
  | sharedAwaitReady c =>
    cases taken
    exact sound.sharedAwaitReady room
  | sharedAwaitSuspend c => exact sound.sharedAwaitSuspend room taken
  | awaitReady c =>
    cases taken
    exact sound.awaitReady c
  | awaitSuspend c => exact sound.awaitSuspend taken
  | tryLock c =>
    cases taken
    exact sound.tryLock c
  | unlockShared c => exact sound.unlockShared taken
  | unlock c => exact sound.unlock room taken

end Sound

/-- In every state of every run in which the counter does not overflow there is no writer beside a reader or another
writer, the counter is exact, and nobody waits while the lock is free. -/
theorem shared_mutex_excludes (run : Reached step (fits · · = true) {} rw) :
    (rw.writers ≠ [] → rw.readers = [] ∧ rw.writers.length = 1) ∧
      rw.state = (if rw.writers = [] then (rw.readers.length : Int) else -1) ∧
      (rw.writeQueue ≠ [] ∨ rw.readQueue ≠ [] → rw.state ≠ 0) := by
  have sound : rw.Sound := run.invariant Sound .new fun sound room taken => sound.step room taken
  refine ⟨fun writer => ?_, ?_, fun waits => ?_⟩
  · rcases sound.counts with ⟨-, none⟩ | ⟨-, readers, one⟩
    · exact absurd none writer
    · exact ⟨readers, one⟩
  · rcases sound.counts with ⟨count, none⟩ | ⟨count, -, one⟩
    · rw [if_pos none, count]
    · rw [if_neg (ne_nil_of_length_eq_add_one one), count]
  rcases waits with waits | waits
  · exact sound.writers waits
  rcases sound.readers waits with writer | waits
  · omega
  · exact sound.writers waits

/-- A reader has the lock; a writer and then another reader wait. -/
theorem shared_mutex_excludes_waiting : ∃ rw, Reached step (fits · · = true) {} rw ∧ rw.readers = [0] ∧
    rw.writeQueue = [1] ∧ rw.readQueue = [2] ∧ rw.state ≠ 0 := by
  obtain ⟨rw, run, reader, writer, waiting⟩ : ∃ rw, Reached step (fits · · = true) {} rw ∧ rw.readers = [0] ∧
      rw.writeQueue = [1] ∧ rw.readQueue = [2] :=
    ⟨_, .runChecked .start
      [.sharedAwaitReady 0, .awaitReady 1, .awaitSuspend 1, .sharedAwaitReady 2, .sharedAwaitSuspend 2] rfl, rfl, rfl, rfl⟩
  refine ⟨rw, run, reader, writer, waiting, (shared_mutex_excludes run).2.2 (.inl ?_)⟩
  rw [writer]
  exact cons_ne_nil _ _

/-- The lock with shared holds that were taken one after the other. -/
def held (count : Nat) : AsyncSharedMutex := { state := count, readers := replicate count 0 }

lemma sharedAwaitReady_held (count : Nat) : (held count).sharedAwaitReady 0 =
    { held (count + 1) with state := wrapInt (count + 1) } := by
  simp [AsyncSharedMutex.sharedAwaitReady, held, sharedFree, AsyncSharedMutex.takeShared, replicate_succ]

lemma reached_held {count : Nat} (few : count < 2 ^ 31) : Reached step (fun _ _ => True) {} (held count) := by
  induction count with
  | zero => exact .start
  | succ count ih =>
    refine .next (a := .sharedAwaitReady 0) (ih (by omega)) trivial (congrArg some ?_)
    rw [sharedAwaitReady_held, wrapInt_eq (by omega) (by omega)]
    rfl

/-- With 2^31 shared holds the counter is negative, and not their number. -/
theorem shared_mutex_overflows : ∃ rw, Reached step (fun _ _ => True) {} rw ∧ rw.writers = [] ∧
    rw.readers.length = 2 ^ 31 ∧ rw.state = -2 ^ 31 := by
  have reached : Reached step (fun _ _ => True) {} (held (2 ^ 31 - 1)) := reached_held (by decide)
  refine ⟨_, .next (a := .sharedAwaitReady 0) reached trivial (congrArg some (sharedAwaitReady_held _)), rfl, ?_, ?_⟩
  · exact length_replicate
  · decide

end AsyncSharedMutex

end Cnetmod.Coro
