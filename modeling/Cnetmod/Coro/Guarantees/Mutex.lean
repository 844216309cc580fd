import Cnetmod.Consensus.Run
import Cnetmod.Coro.Source.Mutex

/-!
# The mutex has one owner and strands nobody

Over every interleaving: the mutex has at most one owner, it has one while anybody waits,
and the waiters get it in the order in which they were queued.
-/
namespace Cnetmod.Coro

open List AsyncMutex

open Consensus (Reached)

inductive MutexStep where
  | tryLock (c : Nat)
  | awaitReady (c : Nat)
  | awaitSuspend (c : Nat)
  | exchangeContended
  | enqueue
  | unlock (c : Nat)
  | unlockContended (c : Nat)
  | takeWaiter
  | handOver

namespace AsyncMutex

variable {m m' : AsyncMutex} {c : Nat}

def step (m : AsyncMutex) : MutexStep → Option AsyncMutex
  | .tryLock c => some (m.tryLock c)
  | .awaitReady c => some (m.awaitReady c)
  | .awaitSuspend c => m.awaitSuspend c
  | .exchangeContended => m.exchangeContended
  | .enqueue => m.enqueue
  | .unlock c => m.unlock c
  | .unlockContended c => m.unlockContended c
  | .takeWaiter => m.takeWaiter
  | .handOver => m.handOver

/-- The coroutine in `unlock_contended` that has the mutex still. -/
def handingOwner (m : AsyncMutex) : List Nat :=
  match m.queueLock with
  | some (.handing c) | some (.storing c _) => [c]
  | _ => []

/-- Everyone who owns the mutex: up to the end of `unlock`, an owner that releases it too. -/
def owning (m : AsyncMutex) : List Nat := m.owners ++ m.releasing ++ m.handingOwner

/-- The waiter that is being handed the mutex. -/
def handed (m : AsyncMutex) : List Nat :=
  match m.queueLock with
  | some (.storing _ waiter) => [waiter]
  | _ => []

/-- Someone relies on the word being contended. -/
def Contested (m : AsyncMutex) : Prop :=
  m.queue ≠ [] ∨ m.releasing ≠ [] ∨ m.handingOwner ≠ [] ∨ ∃ c, m.queueLock = some (.queueing c)

/-- The word and the queue agree. -/
structure Sound (m : AsyncMutex) : Prop where
  single : m.owning.length = if m.word = .unlocked then 0 else 1
  contended : m.Contested → m.word = .contended
  order : m.queued = m.granted ++ m.handed ++ m.queue

namespace Sound

lemma new : ({} : AsyncMutex).Sound := by
  refine ⟨rfl, fun hc => ?_, rfl⟩
  rcases hc with hw | hl | hh | ⟨c, ⟨⟩⟩
  · exact absurd rfl hw
  · exact absurd rfl hl
  · exact absurd rfl hh

variable (hs : m.Sound)

include hs

lemma free (hw : m.word = .unlocked) : m.owning.length = 0 := by rw [hs.single, if_pos hw]

lemma owned (hw : m.word ≠ .unlocked) : m.owning.length = 1 := by rw [hs.single, if_neg hw]

lemma tryLock (c : Nat) : (m.tryLock c).Sound := by
  rw [AsyncMutex.tryLock]
  split
  next hw =>
    refine ⟨?_, fun hc => ?_, hs.order⟩
    · have hf := hs.free hw
      rw [owning, length_append, length_append] at hf ⊢
      change m.owners.length + 1 + m.releasing.length + m.handingOwner.length = 1
      omega
    · cases hw.symm.trans (hs.contended hc)
  · exact hs

lemma awaitReady (c : Nat) : (m.awaitReady c).Sound := by
  rw [AsyncMutex.awaitReady]
  split
  · exact hs.tryLock c
  · exact ⟨hs.single, hs.contended, hs.order⟩

lemma awaitSuspend (ht : m.awaitSuspend c = some m') : m'.Sound := by
  obtain ⟨he, ⟨⟩⟩ := Option.ite_none_right_eq_some.mp ht
  -- nobody was inside, and the exchange has not been made yet
  have hn : m.handingOwner = [] := by rw [handingOwner, he.1]
  have hb : m.handed = [] := by rw [handed, he.1]
  refine ⟨?_, fun hc => ?_, ?_⟩
  · have ha := hs.single
    rw [owning, hn] at ha
    exact ha
  · refine hs.contended ?_
    rcases hc with hw | hl | hh | ⟨d, ⟨⟩⟩
    · exact .inl hw
    · exact .inr (.inl hl)
    · exact absurd rfl hh
  have ho := hs.order
  rw [hb] at ho
  exact ho

lemma exchangeContended (ht : m.exchangeContended = some m') : m'.Sound := by
  rw [AsyncMutex.exchangeContended] at ht
  split at ht
  next c hi =>
    have hh : m.handingOwner = [] := by rw [handingOwner, hi]
    have hb : m.handed = [] := by rw [handed, hi]
    have ho := hs.order
    rw [hb] at ho
    split at ht
    next hw =>
      cases ht
      refine ⟨?_, fun _ => rfl, ho⟩
      have hf := hs.free hw
      rw [owning, hh, append_nil, length_append] at hf
      change ((c :: m.owners) ++ m.releasing ++ []).length = 1
      simp only [append_nil, length_append, length_cons]
      omega
    next hw =>
      cases ht
      refine ⟨?_, fun _ => rfl, ho⟩
      have ha := hs.owned hw
      rw [owning, hh] at ha
      exact ha
  · cases ht

lemma enqueue (ht : m.enqueue = some m') : m'.Sound := by
  rw [AsyncMutex.enqueue] at ht
  split at ht
  next c hi =>
    cases ht
    have hb : m.handingOwner = [] := by rw [handingOwner, hi]
    have hh : m.handed = [] := by rw [handed, hi]
    have hw : m.word = .contended := hs.contended (.inr (.inr (.inr ⟨c, hi⟩)))
    refine ⟨?_, fun _ => hw, ?_⟩
    · have ha := hs.single
      rw [owning, hb] at ha
      exact ha
    have ho := hs.order
    rw [hh] at ho
    change m.queued ++ [c] = m.granted ++ [] ++ (m.queue ++ [c])
    rw [ho, append_nil, append_assoc]
  · cases ht

lemma unlock (ht : m.unlock c = some m') : m'.Sound := by
  rw [AsyncMutex.unlock] at ht
  split at ht
  next hg =>
    have he := length_erase_of_mem hg
    have some : 0 < m.owners.length := length_pos_of_mem hg
    split at ht
    next hw =>
      cases ht
      refine ⟨?_, fun ha => ?_, hs.order⟩
      · have ho := hs.owned (by rw [hw]; decide)
        rw [owning, length_append, length_append] at ho
        change ((m.owners.erase c) ++ m.releasing ++ m.handingOwner).length = 0
        rw [length_append, length_append]
        omega
      · cases hw.symm.trans (hs.contended ha)
    next hw =>
      cases ht
      -- there is an owner, so that the word can only be contended
      have ho := hs.single
      rw [owning, length_append, length_append] at ho
      have hb : m.word ≠ .unlocked := by
        intro hf
        rw [if_pos hf] at ho
        omega
      have hc : m.word = .contended := by
        cases hh : m.word with
        | unlocked => exact absurd hh hb
        | locked => exact absurd hh hw
        | contended => rfl
      refine ⟨?_, fun _ => hc, hs.order⟩
      rw [if_neg hb] at ho
      change ((m.owners.erase c) ++ (c :: m.releasing) ++ m.handingOwner).length = if m.word = .unlocked then 0 else 1
      rw [if_neg hb, length_append, length_append, length_cons]
      omega
  · cases ht

lemma unlockContended (ht : m.unlockContended c = some m') : m'.Sound := by
  obtain ⟨he, ⟨⟩⟩ := Option.ite_none_right_eq_some.mp ht
  have hb : m.handingOwner = [] := by rw [handingOwner, he.1]
  have hh : m.handed = [] := by rw [handed, he.1]
  have hl : m.releasing ≠ [] := ne_nil_of_mem he.2
  have hw : m.word = .contended := hs.contended (.inr (.inl hl))
  refine ⟨?_, fun _ => hw, ?_⟩
  · have ha := hs.single
    have hc := length_erase_of_mem he.2
    have some : 0 < m.releasing.length := length_pos_of_mem he.2
    rw [owning, hb, append_nil, length_append] at ha
    change (m.owners ++ (m.releasing.erase c) ++ [c]).length = if m.word = .unlocked then 0 else 1
    rw [length_append, length_append, length_singleton]
    omega
  have ho := hs.order
  rw [hh] at ho
  exact ho

lemma takeWaiter (ht : m.takeWaiter = some m') : m'.Sound := by
  rw [AsyncMutex.takeWaiter] at ht
  split at ht
  next c hi =>
    have hh : m.handingOwner = [c] := by rw [handingOwner, hi]
    have hn : m.handed = [] := by rw [handed, hi]
    have ha : m.word = .contended := hs.contended (.inr (.inr (.inl (by rw [hh]; simp))))
    have hf := hs.owned (by rw [ha]; decide)
    have ho := hs.order
    rw [owning, hh, length_append, length_append, length_singleton] at hf
    rw [hn] at ho
    split at ht
    next he =>
      cases ht
      refine ⟨?_, fun hc => ?_, ho⟩
      · change (m.owners ++ m.releasing ++ []).length = 0
        rw [append_nil, length_append]
        omega
      have left : m.releasing = [] := length_eq_zero_iff.mp (by omega)
      rcases hc with hw | hl | hha | ⟨d, ⟨⟩⟩
      · exact absurd he hw
      · exact absurd left hl
      · exact absurd rfl hha
    next waiter queue hw =>
      cases ht
      refine ⟨?_, fun _ => ha, ?_⟩
      · have hb := hs.single
        rw [owning, hh] at hb
        exact hb
      · change m.queued = m.granted ++ [waiter] ++ queue
        rw [ho, hw, append_nil, append_assoc, singleton_append]
  · cases ht

lemma handOver (ht : m.handOver = some m') : m'.Sound := by
  rw [AsyncMutex.handOver] at ht
  split at ht
  next c waiter hi =>
    cases ht
    have hh : m.handingOwner = [c] := by rw [handingOwner, hi]
    have hn : m.handed = [waiter] := by rw [handed, hi]
    have hw : m.word = .contended := hs.contended (.inr (.inr (.inl (by rw [hh]; simp))))
    have ha := hs.owned (by rw [hw]; decide)
    rw [owning, hh, length_append, length_append, length_singleton] at ha
    refine ⟨?_, fun hc => ?_, ?_⟩
    · change ((waiter :: m.owners) ++ m.releasing ++ []).length = _
      have hb : (if m.queue = [] then MutexWord.locked else m.word) ≠ .unlocked := by
        split
        · decide
        · rw [hw]
          decide
      rw [if_neg hb, append_nil, length_append, length_cons]
      omega
    · -- the releasing coroutine was the owner, so that only the queue can be left
      have left : m.releasing = [] := length_eq_zero_iff.mp (by omega)
      rcases hc with hwa | hl | hha | ⟨d, ⟨⟩⟩
      · exact (if_neg hwa).trans hw
      · exact absurd left hl
      · exact absurd rfl hha
    have ho := hs.order
    rw [hn] at ho
    change m.queued = m.granted ++ [waiter] ++ [] ++ m.queue
    rw [ho, append_nil]
  · cases ht

lemma step (ht : m.step act = some m') : m'.Sound := by
  cases act with
  | tryLock c =>
    cases ht
    exact hs.tryLock c
  | awaitReady c =>
    cases ht
    exact hs.awaitReady c
  | awaitSuspend c => exact hs.awaitSuspend ht
  | exchangeContended => exact hs.exchangeContended ht
  | enqueue => exact hs.enqueue ht
  | unlock c => exact hs.unlock ht
  | unlockContended c => exact hs.unlockContended ht
  | takeWaiter => exact hs.takeWaiter ht
  | handOver => exact hs.handOver ht

end Sound

/-- In every state of every run the mutex has at most one owner, it has one while a waiter is queued, and the waiters got it
in the order in which they were queued. -/
theorem mutex_exclusive_fifo (run : Reached step (fun _ _ => True) {} m) :
    m.owning.length ≤ 1 ∧ (m.queue ≠ [] → ∃ c, m.owning = [c]) ∧ m.granted ++ m.handed ++ m.queue = m.queued := by
  have hs : m.Sound := run.invariant Sound .new fun hs _ ht => hs.step ht
  refine ⟨?_, fun hw => ?_, hs.order.symm⟩
  · rw [hs.single]
    split
    · exact Nat.zero_le 1
    · exact Nat.le_refl 1
  refine length_eq_one_iff.mp (hs.owned ?_)
  rw [hs.contended (.inl hw)]
  decide

/-- Three coroutines, the second and the third queued while the first owns the mutex; the second has it next. -/
theorem mutex_hands_to_second : ∃ m, Reached step (fun _ _ => True) {} m ∧ m.owning = [1] ∧ m.queue = [2] ∧ m.owning.length ≤ 1 := by
  obtain ⟨m, run, ho, hw⟩ : ∃ m, Reached step (fun _ _ => True) {} m ∧ m.owning = [1] ∧ m.queue = [2] :=
    ⟨_, .runChecked .start [.awaitReady 0, .awaitReady 1, .awaitSuspend 1, .exchangeContended, .enqueue, .awaitReady 2,
      .awaitSuspend 2, .exchangeContended, .enqueue, .unlock 0, .unlockContended 0, .takeWaiter, .handOver] rfl, rfl, rfl⟩
  exact ⟨m, run, ho, hw, (mutex_exclusive_fifo run).1⟩

end AsyncMutex

end Cnetmod.Coro
